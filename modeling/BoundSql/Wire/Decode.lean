import BoundSql.Text.Address
import BoundSql.Wire.Bind

/-!
# Decoding columns

Each type's binary form has exactly one reading; bytes that are not of that form are malformed.
Types without a reading are refused, whatever the column holds.
-/
namespace BoundSql.Wire

open Number (Binary32 Binary64)
open Calendar (Instant)

inductive ColumnFault where
  | malformed
  | unsupported (type : ColumnType)
  deriving DecidableEq

/-- The instant `micros` microseconds after the start of 2000. -/
def instantOf? (micros : Int) : Option Instant :=
  Instant.ofParts? (epochSeconds + micros / 1000000) ((micros % 1000000).toNat * 1000)

def dateOf? (days : Int) : Option Instant := Instant.ofParts? ((epochDays + days) * 86400) 0

/-- A time of day; the count of microseconds wraps after a day. -/
def clockText (micros : Int) : String :=
  let n := (micros % 86400000000).toNat
  let seconds := n / 1000000
  String.ofList
    (Calendar.clockChars (seconds / 3600) (seconds / 60 % 60) (seconds % 60)
      (n % 1000000 * 1000))

/-- A network address behind its family, prefix length, kind and size. -/
def addressText? : List UInt8 → Option String
  | family :: _ :: _ :: size :: address =>
      if (family = 2 ∧ size = 4 ∧ address.length = 4)
          ∨ (family = 3 ∧ size = 16 ∧ address.length = 16) then
        some (Text.Address.toText address)
      else none
  | _ => none

def textOf? (type : ColumnType) (bytes : List UInt8) : Option String :=
  let body :=
    if type.isVersionedText then
      match bytes with
      | 1 :: rest => some rest
      | _ => none
    else some bytes
  body.bind fun b => (Text.Utf8.decodeText b).toOption

def documentOf? (bytes : List UInt8) : Option Json :=
  (Text.Utf8.decode bytes).toOption.bind Json.parse?

/-- The value of bytes of a type that has a reading. -/
def value? (type : ColumnType) (bytes : List UInt8) : Option Value :=
  match type with
  | .bool =>
      match bytes with
      | [b] => some (.bool (b != 0))
      | _ => none
  | .int2 => (signed? 2 bytes).map fun n => .int (Int64.ofInt n)
  | .int4 => (signed? 4 bytes).map fun n => .int (Int64.ofInt n)
  | .int8 => (signed? 8 bytes).map fun n => .int (Int64.ofInt n)
  | .oid => (unsigned? 4 bytes).map fun n => .int (Int64.ofNat n)
  | .float4 =>
      (unsigned? 4 bytes).map fun n => .float (Binary64.ofBinary32 (Binary32.ofPattern n))
  | .float8 => (unsigned? 8 bytes).map fun n => .float (Binary64.ofPattern n)
  | .timestamptz | .timestamp => ((signed? 8 bytes).bind instantOf?).map .time
  | .date => ((signed? 4 bytes).bind dateOf?).map .time
  | .json => (documentOf? bytes).map .json
  | .jsonb =>
      match bytes with
      | 1 :: rest => (documentOf? rest).map .json
      | _ => none
  | .bytea => some (.bytes bytes)
  | .uuid => if bytes.length = 16 then some (.text (Uuid.toText ⟨bytes⟩)) else none
  | .numeric => (decimalOf? bytes).map fun d => .text d.toText
  | .time => (signed? 8 bytes).map fun n => .text (clockText n)
  | .inet => (addressText? bytes).map .text
  | _ => (textOf? type bytes).map .text

def isSupported : ColumnType → Bool
  | .other _ => false
  | _ => true

/-- The value of a column; no bytes are NULL. -/
def decode (type : ColumnType) (bytes : Option (List UInt8)) : Except ColumnFault Value :=
  if !isSupported type then .error (.unsupported type)
  else
    match bytes with
    | none => .ok .null
    | some bs =>
        match value? type bs with
        | some v => .ok v
        | none => .error .malformed

end BoundSql.Wire
