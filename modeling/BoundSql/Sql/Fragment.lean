import BoundSql.Dialect
import BoundSql.Value.Text

/-!
# Fragments

A fragment of a statement is a list of pieces: verbatim text, and values that are bound. Nothing
in a fragment knows its placeholders; they are numbered when the fragment is placed behind a
given number of arguments.
-/
namespace BoundSql.Sql

/-- Text, or a value that a placeholder stands for. -/
inductive Piece where
  | text (s : String)
  | bound (v : Value)

/-- Text and bound values in the order in which they are written. -/
abbrev Fragment := List Piece

/-- An identifier with white space in it is put between double quotes. -/
def identifier (name : String) : String :=
  if name.toList.any (fun c => c = ' ' || c = '\t') then "\"" ++ name ++ "\"" else name

namespace Fragment

def text (s : String) : Fragment := [.text s]

def ident (name : String) : Fragment := [.text (identifier name)]

def bound (v : Value) : Fragment := [.bound v]

/-- The fragments with a separator between each two of them. -/
def separated (separator : String) : List Fragment → Fragment
  | [] => []
  | [f] => f
  | f :: rest => f ++ text separator ++ separated separator rest

def parenthesized (f : Fragment) : Fragment := text "(" ++ f ++ text ")"

/-- ` AS name` -/
def asName (name : String) : Fragment := text " AS " ++ ident name

/-- The bound values in order. -/
def args : Fragment → List Value
  | [] => []
  | .text _ :: rest => args rest
  | .bound v :: rest => v :: args rest

/-- The text of a fragment that stands behind `before` arguments. -/
def placed (d : Dialect) (before : Nat) : Fragment → String
  | [] => ""
  | .text s :: rest => s ++ placed d before rest
  | .bound _ :: rest => d.placeholder (before + 1) ++ placed d (before + 1) rest

/-- The text with each value written at its own place. -/
def inlined : Fragment → String
  | [] => ""
  | .text s :: rest => s ++ inlined rest
  | .bound v :: rest => v.literal ++ inlined rest

@[simp] theorem args_append (f g : Fragment) : args (f ++ g) = args f ++ args g := by
  induction f with
  | nil => rfl
  | cons p f ih => cases p <;> simp [args, ih]

/-- Placeholders are numbered on from what is bound in front. -/
theorem placed_append (d : Dialect) (before : Nat) (f g : Fragment) :
    placed d before (f ++ g) = placed d before f ++ placed d (before + (args f).length) g := by
  induction f generalizing before with
  | nil => simp [placed, args]
  | cons p f ih =>
      cases p with
      | text s => simp [placed, args, ih, String.append_assoc]
      | bound v => simp [placed, args, ih, String.append_assoc, Nat.add_assoc, Nat.add_comm 1]

@[simp] theorem inlined_append (f g : Fragment) : inlined (f ++ g) = inlined f ++ inlined g := by
  induction f with
  | nil => simp [inlined]
  | cons p f ih => cases p <;> simp [inlined, ih, String.append_assoc]

end Fragment

end BoundSql.Sql
