import BoundSql.Row.Scan
import BoundSql.Text.Span
import BoundSql.Wire.Decode

/-!
# Why a statement fails

Compiling never fails; running does, for one of these causes. A run whose deadline the clock cannot
tell has neither a result nor a failure: it is abandoned.
-/
namespace BoundSql.Run

open Text (Span)
open Text.Digits (text)

/-- What a driver reports. -/
inductive DriverCause where
  | reported (message : String)
  /-- The server refused the statement. -/
  | server (code message : String)
  | undecodable (column : Nat)
  | unserializable (parameter : Nat) (cause : Wire.BindError)
  | parameterCount (expected actual : Nat)
  deriving DecidableEq

def DriverCause.message : DriverCause → String
  | .reported message => message
  | .server .. => "db error"
  | .undecodable column => "error deserializing column " ++ text column
  | .unserializable parameter _ => "error serializing parameter " ++ text parameter
  | .parameterCount expected actual =>
      "expected " ++ text expected ++ " parameters but got " ++ text actual

/-- What was scanned, and why that failed. -/
inductive ScanReport where
  | row (cause : Row.ScanCause)
  | column (name : String) (type : Wire.ColumnType)
  | reported (message : String)
  deriving DecidableEq

def ScanReport.message (wording : Wording) : ScanReport → String
  | .row cause => "row scan failed on <caller>: " ++ cause.message wording
  | .column name type =>
      "row scan failed on column " ++ name ++ ": unsupported PostgreSQL type " ++ type.typeName
        ++ "; cast it in the select list"
  | .reported message => "row scan failed on <caller>: " ++ message

/-- Why a call failed. -/
inductive Failure where
  | missingDatabase
  | driver (cause : DriverCause)
  | scan (report : ScanReport)
  /-- The span of time that was allowed. -/
  | timeout (allowed : Span)
  /-- Ends the rows without being an error. -/
  | exit
  /-- The driver knows no last inserted id. -/
  | noInsertId
  | other (message : String)
  deriving DecidableEq

namespace Failure

/-- The text of a failure, as its caller sees it. -/
def message (wording : Wording) : Failure → String
  | .missingDatabase => "DB cannot be nil"
  | .driver cause => cause.message
  | .scan report => report.message wording
  | .timeout allowed => "Query timeout after " ++ allowed.toText
  | .exit => "exit 0"
  | .noInsertId => "LastInsertId is not supported by this driver"
  | .other message => message

def isExit (f : Failure) : Bool := f = .exit

def isTimeout : Failure → Bool
  | .timeout _ => true
  | _ => false

def isScan : Failure → Bool
  | .scan _ => true
  | _ => false

end Failure

/-- Why a run has no result. -/
inductive Halt where
  | failed (cause : Failure)
  /-- The deadline of the run is a time that the clock cannot tell. -/
  | overflow
  deriving DecidableEq

end BoundSql.Run
