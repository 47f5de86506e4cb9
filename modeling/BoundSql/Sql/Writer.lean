import BoundSql.Sql.Fragment

/-!
# Writers

A writer holds the text and the arguments of a statement in the making. Binding a value appends
it to the arguments and writes one placeholder, numbered by their count.
-/
namespace BoundSql.Sql

/-- What has been written so far, with the values bound in it. -/
structure Writer where
  dialect : Dialect
  sql : String
  args : List Value

/-- A statement that is ready to be sent. -/
structure Compiled where
  sql : String
  args : List Value

namespace Writer

def new (d : Dialect) : Writer := ⟨d, "", []⟩

def pushText (w : Writer) (s : String) : Writer := { w with sql := w.sql ++ s }

def pushChar (w : Writer) (c : Char) : Writer := w.pushText (String.singleton c)

def pushIdent (w : Writer) (name : String) : Writer := w.pushText (identifier name)

/-- The placeholder carries the number of the value that it stands for. -/
def pushArg (w : Writer) (v : Value) : Writer :=
  let args := w.args ++ [v]
  { w with sql := w.sql ++ w.dialect.placeholder args.length, args }

def isEmpty (w : Writer) : Bool := w.sql.isEmpty

def pushPiece (w : Writer) : Piece → Writer
  | .text s => w.pushText s
  | .bound v => w.pushArg v

/-- Write a whole fragment. -/
def write (w : Writer) (f : Fragment) : Writer := f.foldl pushPiece w

def compiled (w : Writer) : Compiled := ⟨w.sql, w.args⟩

/-- Writing places the fragment behind the arguments that are there. -/
theorem write_eq (w : Writer) (f : Fragment) :
    w.write f =
      { w with sql := w.sql ++ f.placed w.dialect w.args.length, args := w.args ++ f.args } := by
  induction f generalizing w with
  | nil => simp [write, Fragment.placed, Fragment.args]
  | cons p f ih =>
      have step : w.write (p :: f) = (w.pushPiece p).write f := rfl
      cases p with
      | text s =>
          simp [step, ih, pushPiece, pushText, Fragment.placed, Fragment.args,
            String.append_assoc]
      | bound v =>
          simp [step, ih, pushPiece, pushArg, Fragment.placed, Fragment.args,
            String.append_assoc]

end Writer

/-- A fragment written by a new writer. -/
def Fragment.compiled (d : Dialect) (f : Fragment) : Compiled :=
  ((Writer.new d).write f).compiled

end BoundSql.Sql
