import BoundSql.Row.Basic
import BoundSql.Sql.Render

/-!
# Row shapes

The shape of a mapper is what it declares. A driver row is first normalised into the slots of the
shape, then the mapper runs on the slots and must read all of them.
-/
namespace BoundSql.Row

open Sql (Field Fragment)

/-- A mapper reads one row; it may keep state of its own between rows. -/
abbrev Mapper (σ α : Type) := σ → Reader (α × σ)

/-- The fields and slots that a mapper declares, in order. -/
structure Shape where
  columns : List (Field × SlotKind)

namespace Shape

def fields (s : Shape) : List Field := s.columns.map (·.1)

def kinds (s : Shape) : List SlotKind := s.columns.map (·.2)

def isEmpty (s : Shape) : Bool := s.columns.isEmpty

/-- Run a mapper once without values. -/
def declare {σ α : Type} (m : Mapper σ α) (state : σ) : Shape × σ :=
  let ((_, state), row) := (m state).run State.declaring
  (⟨row.declared⟩, state)

/-- The name after AS of a field, else its text. -/
def label (f : Field) : String :=
  if f.asName.isEmpty then (Fragment.compiled .mysql (f.render .mysql [])).sql else f.asName

def labels (s : Shape) : List String := s.fields.map label

/-- Scan the columns from number `index` on into their slots. -/
def scanFrom (index : Nat) : List SlotKind → List Value → Except ScanCause (List Value)
  | k :: ks, v :: vs =>
      match k.scan v with
      | .error cause => .error (.column index cause)
      | .ok slot => (scanFrom (index + 1) ks vs).map (slot :: ·)
  | _, _ => .ok []

/-- A shape without columns takes no part of the row. -/
def scan (s : Shape) (values : List Value) : Except ScanCause (List Value) :=
  if s.isEmpty then .ok []
  else if values.length ≠ s.columns.length then
    .error (.columnCount s.columns.length values.length)
  else scanFrom 0 s.kinds values

/-- Run a mapper on slots: its item, or the first failure, or that it read too few columns. -/
def materialize {σ α : Type} (s : Shape) (slots : List Value) (m : Mapper σ α) (state : σ) :
    Except ScanCause α × σ :=
  let ((item, state), row) := (m state).run (State.materializing slots)
  (match row.failure with
    | some cause => .error cause
    | none =>
        if row.next = s.columns.length then .ok item
        else .error (.readCount row.next s.columns.length),
    state)

/-- Scan a row into its slots and map them. -/
def item {σ α : Type} (s : Shape) (m : Mapper σ α) (values : List Value) (state : σ) :
    Except ScanCause α × σ :=
  match s.scan values with
  | .error cause => (.error cause, state)
  | .ok slots => s.materialize slots m state

end Shape

end BoundSql.Row
