import BoundSql.Row.Scan
import BoundSql.Sql.Field

/-!
# Rows

A row mapper reads a row through accessors, one column each. While it declares, accessors record
their field and the kind of slot they want, and return zero values. While it materialises, the
accessor number `i` reads slot `i`; the first one that fails is remembered, and the others go on.
-/
namespace BoundSql.Row

open Number (Binary64)
open Calendar (Instant)
open Sql (Field Predicate TypedField)

/-- A mapper runs to declare its columns, and then once for each row. -/
inductive Phase where
  | declaring
  | materializing
  deriving DecidableEq, Repr

structure State where
  phase : Phase
  /-- Recorded fields with their slots. -/
  declared : List (Field × SlotKind) := []
  slots : List Value := []
  /-- The slot that the next accessor reads. -/
  next : Nat := 0
  failure : Option ScanCause := none

/-- A program that reads a row. -/
abbrev Reader (α : Type) := StateM State α

def State.declaring : State := { phase := .declaring }

def State.materializing (slots : List Value) : State := { phase := .materializing, slots }

/-- What the mapper is run for. -/
def phase : Reader Phase := do return (← get).phase

/-- How many accessors have been called. -/
def index : Reader Nat := do
  let s ← get
  return match s.phase with
    | .declaring => s.declared.length
    | .materializing => s.next

/-- Only the first failure counts. -/
def State.fail (s : State) (cause : ScanCause) : State :=
  { s with failure := some (s.failure.getD cause) }

/-- One accessor call: the slot that it reads, if there is one. -/
def State.read (s : State) (f : Field) (k : SlotKind) : Option Value × State :=
  match s.phase with
  | .declaring => (none, { s with declared := s.declared ++ [(f, k)] })
  | .materializing =>
      let s' := { s with next := s.next + 1 }
      match s.slots[s.next]? with
      | some v => (some v, s')
      | none => (none, s'.fail (.undeclared s.next s.slots.length))

/-- Read a column and convert it; `fallback` stands for what cannot be read. -/
def readOr {α : Type} [FromValue α] (fallback : α) (f : Field) : Reader α := fun s =>
  match s.read f (FromValue.kind α) with
  | (none, s) => (fallback, s)
  | (some v, s) =>
      match FromValue.ofNullable v with
      | .ok a => (a, s)
      | .error cause => (fallback, s.fail (.conversion cause))

/-- A column as an `α`, with its zero value where there is none. -/
def column (α : Type) [FromValue α] [Inhabited α] (f : Field) : Reader α := readOr default f

/-- A column into a place that holds `current`; a failure leaves it as it was. -/
def scanInto {α : Type} [FromValue α] (current : α) (f : Field) : Reader α := readOr current f

/-- Whether a column read as an `α` is not NULL. -/
def isValid (α : Type) [FromValue α] (f : Field) : Reader Bool := do
  return (← column (Option α) f).isSome

/-- The value of a column as it is. -/
def value (f : Field) : Reader Value := column Value f

/-- The truth of a predicate; NULL is false. -/
def bool (p : Predicate) : Reader Bool := column Bool (.condition p)
/-- Whether a boolean column is not NULL. -/
def boolValid (p : Predicate) : Reader Bool := isValid Bool (.condition p)
def nullBool (p : Predicate) : Reader (Option Bool) := column (Option Bool) (.condition p)

def float64 (f : TypedField .number) : Reader Binary64 := column Binary64 f.toField
def float64Valid (f : TypedField .number) : Reader Bool := isValid Binary64 f.toField
def nullFloat64 (f : TypedField .number) : Reader (Option Binary64) :=
  column (Option Binary64) f.toField

/-- A 32-bit integer, refused if the value does not fit. -/
def int32 (f : TypedField .number) : Reader Int32 := column Int32 f.toField
def nullInt32 (f : TypedField .number) : Reader (Option Int32) :=
  column (Option Int32) f.toField

def int64 (f : TypedField .number) : Reader Int64 := column Int64 f.toField
def int64Valid (f : TypedField .number) : Reader Bool := isValid Int64 f.toField
def nullInt64 (f : TypedField .number) : Reader (Option Int64) :=
  column (Option Int64) f.toField

def string (f : TypedField .text) : Reader String := column String f.toField
def stringValid (f : TypedField .text) : Reader Bool := isValid String f.toField
/-- A text, or none for NULL. -/
def nullString (f : TypedField .text) : Reader (Option String) :=
  column (Option String) f.toField

def time (f : TypedField .time) : Reader Instant := column Instant f.toField
def timeValid (f : TypedField .time) : Reader Bool := isValid Instant f.toField
def nullTime (f : TypedField .time) : Reader (Option Instant) :=
  column (Option Instant) f.toField

end BoundSql.Row
