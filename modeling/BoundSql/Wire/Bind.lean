import BoundSql.Text.Uuid
import BoundSql.Value.Convert
import BoundSql.Wire.ColumnType
import BoundSql.Wire.Numeric

/-!
# Binding values

A value is sent in the binary form of its parameter's type, or refused with a cause. Integers are
checked against the range of the type and never cut; a double goes into an integer only if it is
whole. Texts for types with a form of their own are read by the libraries of these types.
-/
namespace BoundSql.Wire

open Number (Binary32 Binary64)
open Calendar (Instant)

/-- Why a value cannot be bound to a parameter of the type. -/
inductive BindError where
  /-- Values of the source's kind are not sent as this type. -/
  | wrongType (source : Target) (type : ColumnType)
  | outOfRange
  | notWhole (x : Binary64) (type : ColumnType)
  /-- A double that is no decimal number. -/
  | decimal
  | refused (refusal : Refusal)
  deriving DecidableEq

namespace BindError

def message (wording : Wording) : BindError → String
  | .wrongType source type =>
      "cannot convert between the Rust type `" ++ source.name ++ "` and the Postgres type `"
        ++ type.typeName ++ "`"
  | .outOfRange => "out of range integral type conversion attempted"
  | .notWhole x type => "cannot bind non-integral float " ++ x.toText ++ " as " ++ type.typeName
  | .decimal => "Error while converting to Decimal"
  | .refused refusal => wording refusal

end BindError

/-- The bytes to send, or the cause for which there are none. -/
abbrev Bound := Except BindError (List UInt8)

/-- Seconds from 1970 to 2000. -/
def epochSeconds : Int := 946684800

/-- The days from 1970-01-01 to 2000-01-01, where the database counts from. -/
def epochDays : Int := 10957

/-- An integer of `k` bytes in two's complement, if it fits. -/
def signedBound (k : Nat) (n : Int) : Bound :=
  if -(Nat.pow 256 k : Int) ≤ 2 * n ∧ 2 * n < (Nat.pow 256 k : Int) then .ok (signedBytes k n)
  else .error .outOfRange

def unsignedBound (k : Nat) (n : Int) : Bound :=
  if 0 ≤ n ∧ n < (Nat.pow 256 k : Int) then .ok (unsignedBytes k n.toNat) else .error .outOfRange

def textBytes (type : ColumnType) (s : String) : List UInt8 :=
  if type.isVersionedText then 1 :: Text.Utf8.encodeText s else Text.Utf8.encodeText s

def doubleBytes (x : Binary64) : List UInt8 := unsignedBytes 8 x.bits.toNat

def singleBytes (x : Binary32) : List UInt8 := unsignedBytes 4 x.bits.toNat

def documentBytes (type : ColumnType) (j : Json) : List UInt8 :=
  let text := Text.Utf8.encode j.chars
  if type = .jsonb then 1 :: text else text

/-- An integer can be bound to any numeric type that has room for it. -/
def bindInt (n : Int64) (type : ColumnType) : Bound :=
  match type with
  | .int2 => signedBound 2 n.toInt
  | .int4 => signedBound 4 n.toInt
  | .int8 => signedBound 8 n.toInt
  | .oid => unsignedBound 4 n.toInt
  | .float4 => .ok (singleBytes (Binary32.ofInt n.toInt))
  | .float8 => .ok (doubleBytes (Binary64.ofInt n.toInt))
  | .numeric => .ok (decimalBytes (Decimal.ofInt64 n))
  | _ =>
      if type.isText then .ok (textBytes type (Text.Digits.intText n.toInt))
      else .error (.wrongType .int64 type)

/-- The 64-bit integer of a whole double. The ends of the range are compared as doubles; the upper
one is no double, and the next one above it, which stands for it, is left out. -/
def wholeInt64? (x : Binary64) : Option Int64 :=
  if x.isFinite && x.isWhole && (Binary64.ofInt Int64.minValue.toInt).le x
      && x.lt (Binary64.ofInt Int64.maxValue.toInt) then
    some x.toInt64
  else none

/-- A float is bound to an integer type only if it is whole. -/
def bindFloat (x : Binary64) (type : ColumnType) : Bound :=
  match type with
  | .float4 => .ok (singleBytes (Binary32.ofBinary64 x))
  | .float8 => .ok (doubleBytes x)
  | .numeric =>
      match Decimal.ofBinary64? x with
      | some d => .ok (decimalBytes d)
      | none => .error .decimal
  | .int2 | .int4 | .int8 =>
      match wholeInt64? x with
      | some n => bindInt n type
      | none => .error (.notWhole x type)
  | _ =>
      if type.isText then .ok (textBytes type x.toText) else .error (.wrongType .float64 type)

def bindText (s : String) (type : ColumnType) : Bound :=
  match type with
  | .uuid =>
      match Uuid.parse? s.toList with
      | some u => .ok u.bytes
      | none => .error (.refused (.uuid s))
  | .json | .jsonb =>
      match Json.parse? s.toList with
      | some j => .ok (documentBytes type j)
      | none => .error (.refused (.document s))
  | .numeric =>
      match Decimal.parse? (Text.trim s.toList) with
      | some d => .ok (decimalBytes d)
      | none => .error (.refused (.decimal s))
  | _ => if type.isText then .ok (textBytes type s) else .error (.wrongType .string type)

/-- Microseconds since 2000, the rest of the last one dropped. -/
def microseconds (t : Instant) : Int :=
  Int.tdiv ((t.seconds - epochSeconds) * 1000000000 + t.nanos) 1000

def bindInstant (t : Instant) (type : ColumnType) : Bound :=
  match type with
  | .timestamp | .timestamptz => .ok (signedBytes 8 (microseconds t))
  | .date => .ok (signedBytes 4 (t.days - epochDays))
  | _ => .error (.wrongType .time type)

/-- The binary form of a value for a parameter; `none` is NULL, which every type has. -/
def bind (type : ColumnType) (v : Value) : Except BindError (Option (List UInt8)) :=
  match v with
  | .null => .ok none
  | .bool b =>
      if type = .bool then .ok (some [if b then 1 else 0]) else .error (.wrongType .bool type)
  | .int n => (bindInt n type).map some
  | .float x => (bindFloat x type).map some
  | .text s => (bindText s type).map some
  | .bytes bs =>
      if type = .bytea then .ok (some bs) else .error (.wrongType .bytes type)
  | .time t => (bindInstant t type).map some
  | .json j =>
      if type.isText then .ok (some (textBytes type j.toText))
      else if type = .json ∨ type = .jsonb then .ok (some (documentBytes type j))
      else .error (.wrongType .json type)

end BoundSql.Wire
