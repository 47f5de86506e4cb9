import BoundSql.Value.Convert

/-!
# Why a row cannot be read
-/
namespace BoundSql.Row

/-- Why a row could not be scanned. -/
inductive ScanCause where
  /-- The row has not as many columns as were declared. -/
  | columnCount (declared actual : Nat)
  /-- A column does not fit its slot. -/
  | column (index : Nat) (cause : ConvertError)
  /-- An accessor could not convert its slot. -/
  | conversion (cause : ConvertError)
  /-- An accessor asked for a column behind the declared ones. -/
  | undeclared (index declared : Nat)
  /-- The mapper stopped before the last declared column. -/
  | readCount (read declared : Nat)
  deriving DecidableEq

open Text.Digits (text)

def ScanCause.message (wording : Wording) : ScanCause → String
  | .columnCount declared actual =>
      "expected " ++ text declared ++ " columns, got " ++ text actual
  | .column index cause => "column " ++ text index ++ ": " ++ cause.message wording
  | .conversion cause => cause.message wording
  | .undeclared index declared =>
      "column " ++ text index ++ " requested but only " ++ text declared ++ " were declared"
  | .readCount read declared =>
      "mapper read " ++ text read ++ " columns but declared " ++ text declared

end BoundSql.Row
