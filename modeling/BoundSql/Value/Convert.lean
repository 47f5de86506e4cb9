import BoundSql.Calendar.Parse
import BoundSql.Decimal.OfFloat
import BoundSql.Decimal.Parse
import BoundSql.Json.Parser
import BoundSql.Number.Integer
import BoundSql.Text.Utf8
import BoundSql.Value.Text

/-!
# Reading values as native types

`FromValue α` says how a value that is not NULL becomes an `α`, what NULL becomes, and which slot
a column of that type is scanned into first. A conversion fails with its cause. Where the cause is
that a library refuses something, how the library words that is left open.
-/
namespace BoundSql

open Number (Binary64)
open Calendar (Instant)

/-- How a column is normalised before it is converted. `raw` leaves it as it is. -/
inductive SlotKind where
  | bool
  | int32
  | int64
  | float64
  | string
  | time
  | raw
  deriving DecidableEq, Repr

/-- The types that conversions end in. -/
inductive Target where
  | bool
  | int64
  | float64
  | string
  | time
  | bytes
  | decimal
  | json
  | intList
  | stringList
  deriving DecidableEq

/-- The name of a target in messages. -/
def Target.name : Target → String
  | .bool => "bool"
  | .int64 => "i64"
  | .float64 => "f64"
  | .string => "alloc::string::String"
  | .time => "chrono::datetime::DateTime<chrono::offset::utc::Utc>"
  | .bytes => "alloc::vec::Vec<u8>"
  | .decimal => "rust_decimal::decimal::Decimal"
  | .json => "serde_json::value::Value"
  | .intList => "alloc::vec::Vec<i64>"
  | .stringList => "alloc::vec::Vec<alloc::string::String>"

/-- What a library does not take. -/
inductive Refusal where
  /-- A text that is no JSON document, or none of the wanted shape. -/
  | document (text : String)
  | documentBytes (bytes : List UInt8)
  | uuid (text : String)
  | decimal (text : String)
  deriving DecidableEq

/-- How libraries say that they do not take something. -/
abbrev Wording := Refusal → String

inductive ConvertError where
  /-- The value's variant, or its text, is none of the target's. -/
  | mismatch (found : String) (target : Target)
  /-- A number outside the 32-bit range. -/
  | outOfRange (n : Int64)
  | utf8 (cause : Text.Utf8.DecodeError)
  | refused (refusal : Refusal)
  /-- A double that is no decimal number. -/
  | decimal
  /-- NULL for a document of the given type, which has no value for it. -/
  | null (target : Target)
  deriving DecidableEq

namespace ConvertError

def message (wording : Wording) : ConvertError → String
  | .mismatch found target => "cannot convert " ++ found ++ " into " ++ target.name
  | .outOfRange n => "value " ++ Text.Digits.intText n.toInt ++ " out of range for i32"
  | .utf8 cause => cause.message
  | .refused refusal => wording refusal
  | .decimal => "Error while converting to Decimal"
  | .null target => "cannot scan NULL into sqb::value::Json<" ++ target.name ++ ">"

end ConvertError

def mismatch {α : Type} (v : Value) (target : Target) : Except ConvertError α :=
  .error (.mismatch v.typeName target)

/-- A reading that succeeds, or a mismatch. -/
def orMismatch {α : Type} (v : Value) (target : Target) : Option α → Except ConvertError α
  | some a => .ok a
  | none => mismatch v target

/-- Native types that a scanned value can be read as, with the slot that is declared for them and
what stands for NULL. -/
class FromValue (α : Type) where
  kind : SlotKind
  ofValue : Value → Except ConvertError α
  ofNull : Except ConvertError α

namespace FromValue

/-- Convert any value, NULL included. -/
def ofNullable {α : Type} [FromValue α] : Value → Except ConvertError α
  | .null => ofNull
  | v => ofValue v

end FromValue

namespace Value

/-- The texts that are read as booleans. -/
def boolOfText? (s : String) : Option Bool :=
  if s = "1" ∨ s = "t" ∨ s = "true" ∨ s = "TRUE" then some true
  else if s = "0" ∨ s = "f" ∨ s = "false" ∨ s = "FALSE" then some false
  else none

def toBool (v : Value) : Except ConvertError Bool :=
  match v with
  | .bool b => .ok b
  | .int n => .ok (n != 0)
  | .text s => orMismatch v .bool (boolOfText? s)
  | _ => mismatch v .bool

def toInt64 (v : Value) : Except ConvertError Int64 :=
  match v with
  | .int n => .ok n
  | .bool b => .ok (if b then 1 else 0)
  | .text s => orMismatch v .int64 (Number.parseInt64? (Text.trim s.toList))
  | _ => mismatch v .int64

/-- Whether a 64-bit integer can be narrowed. -/
def fitsInt32 (n : Int64) : Bool := -2147483648 ≤ n.toInt && n.toInt ≤ 2147483647

/-- Read as a 64-bit integer first, so that the message is that of the wider type unless the range
is at fault. -/
def toInt32 (v : Value) : Except ConvertError Int32 := do
  let wide ← v.toInt64
  if fitsInt32 wide then .ok wide.toInt32 else .error (.outOfRange wide)

def toFloat64 (v : Value) : Except ConvertError Binary64 :=
  match v with
  | .float x => .ok x
  | .int n => .ok (Binary64.ofInt n.toInt)
  | .text s => orMismatch v .float64 (Binary64.parse? (Text.trim s.toList))
  | _ => mismatch v .float64

def toString (v : Value) : Except ConvertError String :=
  match v with
  | .text s => .ok s
  | .bytes bs => (Text.Utf8.decodeText bs).mapError .utf8
  | .null => mismatch v .string
  | _ => .ok v.toText

def toInstant (v : Value) : Except ConvertError Instant :=
  match v with
  | .time t => .ok t
  | .text s => orMismatch v .time (Instant.parse? s.toList)
  | _ => mismatch v .time

def toBytes (v : Value) : Except ConvertError (List UInt8) :=
  match v with
  | .bytes bs => .ok bs
  | .text s => .ok (Text.Utf8.encodeText s)
  | _ => mismatch v .bytes

def toDecimal (v : Value) : Except ConvertError Decimal :=
  match v with
  | .int n => .ok (Decimal.ofInt64 n)
  | .float x =>
      match Decimal.ofBinary64? x with
      | some d => .ok d
      | none => .error .decimal
  | .text s => orMismatch v .decimal (Decimal.parse? (Text.trim s.toList))
  | _ => mismatch v .decimal

/-- What is read of a document, if there is something to read. -/
def orRefused {α : Type} (v : Value) : Option α → Except ConvertError α
  | some a => .ok a
  | none =>
      match v with
      | .bytes bs => .error (.refused (.documentBytes bs))
      | _ => .error (.refused (.document v.toText))

/-- The document in a value; a mismatch names `target`. -/
def toDocument (v : Value) (target : Target) : Except ConvertError Json :=
  match v with
  | .json j => .ok j
  | .text s => orRefused v (Json.parse? s.toList)
  | .bytes bs => orRefused v ((Text.Utf8.decode bs).toOption.bind Json.parse?)
  | _ => mismatch v target

end Value

/-- A date and a time of day without a zone, which stand for that time in UTC. -/
structure NaiveInstant where
  utc : Instant

instance : FromValue Bool := ⟨.bool, Value.toBool, .ok false⟩
instance : FromValue Int64 := ⟨.int64, Value.toInt64, .ok 0⟩
instance : FromValue Int32 := ⟨.int32, Value.toInt32, .ok 0⟩
instance : FromValue Binary64 := ⟨.float64, Value.toFloat64, .ok Binary64.zero⟩
instance : FromValue String := ⟨.string, Value.toString, .ok ""⟩
instance : FromValue Instant := ⟨.time, Value.toInstant, .ok Instant.epoch⟩
instance : FromValue NaiveInstant := ⟨.time, fun v => v.toInstant.map .mk, .ok ⟨Instant.epoch⟩⟩
instance : FromValue (List UInt8) := ⟨.raw, Value.toBytes, .ok []⟩
instance : FromValue Decimal := ⟨.raw, Value.toDecimal, .ok Decimal.zero⟩
instance : FromValue Json := ⟨.raw, (·.toDocument .json), .ok .null⟩
instance : FromValue Value := ⟨.raw, .ok, .ok .null⟩

instance {α : Type} [FromValue α] : FromValue (Option α) :=
  ⟨FromValue.kind α, fun v => (FromValue.ofValue v).map some, .ok none⟩

/-- Types that can be items of a JSON array column. -/
class JsonItem (α : Type) where
  target : Target
  ofJson? : Json → Option α

instance : JsonItem Int64 where
  target := .intList
  ofJson?
    | .integer n => Number.int64? n
    | _ => none

instance : JsonItem String where
  target := .stringList
  ofJson?
    | .string s => some s
    | _ => none

/-- A column that holds a JSON array of items of one type. -/
structure JsonArray (α : Type) where
  items : List α

def JsonArray.ofJson? {α : Type} [JsonItem α] : Json → Option (JsonArray α)
  | .array js => (js.mapM JsonItem.ofJson?).map .mk
  | _ => none

instance {α : Type} [JsonItem α] : FromValue (JsonArray α) where
  kind := .raw
  ofValue v := do v.orRefused (JsonArray.ofJson? (← v.toDocument (JsonItem.target α)))
  ofNull := .error (.null (JsonItem.target α))

/-- Normalise a column for a slot. NULL passes through. -/
def SlotKind.scan (k : SlotKind) (v : Value) : Except ConvertError Value :=
  if v.isNull then .ok .null
  else
    match k with
    | .bool => v.toBool.map .bool
    | .int32 => v.toInt32.map fun n => .int n.toInt64
    | .int64 => v.toInt64.map .int
    | .float64 => v.toFloat64.map .float
    | .string => v.toString.map .text
    | .time => v.toInstant.map .time
    | .raw => .ok v

end BoundSql
