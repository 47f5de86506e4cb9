import BoundSql.Sql.Field

/-!
# Predicates

Groups, negation and subqueries that ask whether there is a row. Negating twice gives the
predicate back.
-/
namespace BoundSql.Sql.Predicate

def all (ps : List Predicate) : Predicate := .group false .and ps ""

def any (ps : List Predicate) : Predicate := .group false .or ps ""

/-- A predicate that asks for a row of the query. -/
def ofRows (q : Query) : Predicate := .ofTemplate "EXISTS ?" [.query q]

def ofNoRows (q : Query) : Predicate := .ofTemplate "NOT EXISTS ?" [.query q]

def negate : Predicate → Predicate
  | .template negated format args asName => .template (!negated) format args asName
  | .group negated connective members asName => .group (!negated) connective members asName
  | .flag negated term marks => .flag (!negated) term marks

/-- Name a template or a group. -/
def named (p : Predicate) (asName : String) : Predicate :=
  match p with
  | .template negated format args _ => .template negated format args asName
  | .group negated connective members _ => .group negated connective members asName
  | .flag negated term marks => .flag negated term { marks with asName }

@[simp] theorem negate_negate (p : Predicate) : p.negate.negate = p := by
  cases p <;> simp [negate]

end BoundSql.Sql.Predicate
