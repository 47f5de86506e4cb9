import BoundSql.Dialect
import BoundSql.Value.Text

/-!
# Arguments in place

For display, the placeholders of a statement are replaced by the literals of their arguments.
What stands between quotes is left alone, and so is a placeholder without an argument.
-/
namespace BoundSql.Log

open Text.Digits (isDigit)

def isQuote (c : Char) : Bool := c = '\'' || c = '"' || c = '`'

/-- The argument that a run of digits behind `$` names, counted from one. Numbers beyond 64 bits
name none. -/
def numbered? (args : List Value) (ds : List Char) : Option Value :=
  let n := Text.Digits.value ds
  if ds.isEmpty || n = 0 || Text.Digits.wordLimit ≤ n then none else args[n - 1]?

/-- `quote` is the quote that is open; `next` counts the question marks before. -/
def inlineFrom (d : Dialect) (args : List Value) (quote : Option Char) (next : Nat)
    (sql : List Char) : List Char :=
  match sql with
  | [] => []
  | c :: rest =>
      match quote with
      | some q => c :: inlineFrom d args (if c = q then none else some q) next rest
      | none =>
          if isQuote c then c :: inlineFrom d args (some c) next rest
          else if c = '?' ∧ d = .mysql then
            (match args[next]? with
              | some v => v.literal.toList
              | none => ['?'])
              ++ inlineFrom d args none (next + 1) rest
          else if c = '$' ∧ d = .postgres then
            let ds := rest.takeWhile isDigit
            (match numbered? args ds with
              | some v => v.literal.toList
              | none => '$' :: ds)
              ++ inlineFrom d args none next (rest.dropWhile isDigit)
          else c :: inlineFrom d args none next rest
termination_by sql.length
decreasing_by
  all_goals simp only [List.length_cons]
  all_goals have := (List.dropWhile_sublist isDigit (l := rest)).length_le
  all_goals omega

def inlineArgs (d : Dialect) (sql : String) (args : List Value) : String :=
  String.ofList (inlineFrom d args none 0 sql.toList)

end BoundSql.Log
