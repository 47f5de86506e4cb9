import BoundSql.Sql.Select

/-!
# Building updates and deletions
-/
namespace BoundSql.Sql

namespace Update

def empty (d : Dialect) (asName : String) (ctes : List CommonTable) (target : BaseTable) :
    Update :=
  { dialect := d, asName, ctes, target }

/-- A call on an update. -/
inductive Step where
  | named (asName : String)
  | common (ctes : List CommonTable)
  | assign (assignments : List Assignment)
  | source (t : Table)
  | join (j : Join)
  | condition (p : Predicate)
  | orderBy (fs : List Field)
  | limit (n : Int64)
  | returning (fs : List Field)

/-- Lists are extended; whatever there is one of is replaced. -/
def apply (q : Update) : Step → Update
  | .named asName => { q with asName }
  | .common ctes => { q with ctes := register q.ctes ctes }
  | .assign assignments => { q with assignments := q.assignments ++ assignments }
  | .source t => { q with source := some t }
  | .join j => { q with joins := q.joins ++ [j] }
  | .condition p => { q with conditions := q.conditions ++ [p] }
  | .orderBy fs => { q with orderBy := q.orderBy ++ fs }
  | .limit n => { q with limit := some (magnitude n) }
  | .returning fs => { q with returning := q.returning ++ fs }

end Update

namespace Delete

def empty (d : Dialect) (asName : String) (ctes : List CommonTable) (target : BaseTable) :
    Delete :=
  { dialect := d, asName, ctes, targets := [target] }

/-- A call on a deletion. -/
inductive Step where
  | named (asName : String)
  | common (ctes : List CommonTable)
  | target (t : BaseTable)
  | source (t : Table)
  | join (j : Join)
  | condition (p : Predicate)
  | orderBy (fs : List Field)
  | limit (n : Int64)
  | returning (fs : List Field)

def apply (q : Delete) : Step → Delete
  | .named asName => { q with asName }
  | .common ctes => { q with ctes := register q.ctes ctes }
  | .target t => { q with targets := q.targets ++ [t] }
  | .source t => { q with source := some t }
  | .join j => { q with joins := q.joins ++ [j] }
  | .condition p => { q with conditions := q.conditions ++ [p] }
  | .orderBy fs => { q with orderBy := q.orderBy ++ fs }
  | .limit n => { q with limit := some (magnitude n) }
  | .returning fs => { q with returning := q.returning ++ fs }

end Delete

end BoundSql.Sql
