import BoundSql.Sql.Fragment

/-!
# Templates

In a template `??` stands for a question mark, paired from the left, and every other `?` is a
slot. Slots are filled from the left; a slot without a filling stays a question mark, a filling
without a slot is not used.
-/
namespace BoundSql.Sql.Template

inductive Part where
  | char (c : Char)
  | slot
  deriving DecidableEq

def parts : List Char → List Part
  | '?' :: '?' :: rest => .char '?' :: parts rest
  | '?' :: rest => .slot :: parts rest
  | c :: rest => .char c :: parts rest
  | [] => []

def filled : List Part → List Fragment → Fragment
  | [], _ => []
  | .char c :: rest, fs => .text (String.singleton c) :: filled rest fs
  | .slot :: rest, [] => .text "?" :: filled rest []
  | .slot :: rest, f :: fs => f ++ filled rest fs

/-- A template with its slots filled. -/
def expanded (template : String) (fillings : List Fragment) : Fragment :=
  filled (parts template.toList) fillings

/-- The template that stands for exactly this text. -/
def escaped (s : String) : String :=
  String.ofList (s.toList.flatMap fun c => if c = '?' then ['?', '?'] else [c])

end BoundSql.Sql.Template
