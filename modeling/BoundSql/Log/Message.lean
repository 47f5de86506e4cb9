import BoundSql.Log.Flags
import BoundSql.Log.Inline
import BoundSql.Sql.Writer

/-!
# Log messages

The lines that a query writes to its logger. How long a query took is not known here; its place
is marked.
-/
namespace BoundSql.Log

open Sql (Compiled)

/-- At most so many rows of a result are shown. -/
def shownRows : Nat := 5

def argsList (args : List Value) : String :=
  "[" ++ String.intercalate " " (args.map Value.literal) ++ "]"

def queryMessage (flags : LogFlags) (d : Dialect) (c : Compiled) : String :=
  if flags.stats then
    "\n----[ Executing query ]----\n" ++ c.sql ++ " " ++ argsList c.args
      ++ "\n----[ with bind values ]----\n" ++ inlineArgs d c.sql c.args
  else if flags.inlined then "Executing query: " ++ inlineArgs d c.sql c.args
  else "Executing query: " ++ c.sql ++ " " ++ argsList c.args

/-- Row number `index` with one line per declared field. -/
def rowMessage (index : Nat) (labels : List String) (values : List Value) : String :=
  "\n----[ Row " ++ Text.Digits.text index ++ " ]----"
    ++ String.join (List.zipWith (fun l v => "\n" ++ l ++ ": " ++ v.literal) labels values)

def declaredMessage (labels : List String) : String :=
  "Declared fields: " ++ String.intercalate ", " labels

def statsMessage (verb : String) (count : Int) : String :=
  "\n(" ++ verb ++ " " ++ Text.Digits.intText count ++ (if count = 1 then " row" else " rows")
    ++ " in <elapsed>)"

end BoundSql.Log
