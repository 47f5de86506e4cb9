/-!
# Dialects

The dialects differ in their placeholders, and in where a few clauses stand.
-/
namespace BoundSql

inductive Dialect where
  | mysql
  | postgres
  deriving DecidableEq, Repr, Inhabited

namespace Dialect

/-- The placeholder for argument number `n`, counted from one. -/
def placeholder (d : Dialect) (n : Nat) : String :=
  match d with
  | mysql => "?"
  | postgres => "$" ++ toString n

end Dialect

end BoundSql
