import BoundSql.Sql.Render

/-!
# Building selects

A select starts empty and is changed step by step. Each step belongs to one clause; within a
clause later steps add to earlier ones, except that FROM, LIMIT and OFFSET keep the last.
-/
namespace BoundSql.Sql

/-- The magnitude of a number; the one that has none is replaced by the largest. -/
def magnitude (n : Int64) : Int64 :=
  if n = Int64.minValue then Int64.maxValue else if n < 0 then -n else n

/-- Register common tables; of each name the first is kept. -/
def register (ctes added : List CommonTable) : List CommonTable :=
  addAllNew (·.name) ctes added

namespace Select

def empty (d : Dialect) (asName : String) (ctes : List CommonTable) : Select :=
  { dialect := d, asName, ctes }

inductive Step where
  | named (asName : String)
  | common (ctes : List CommonTable)
  | fields (fs : List Field)
  | distinct
  | distinctOn (fs : List Field)
  | source (t : Table)
  | join (j : Join)
  | condition (p : Predicate)
  | groupBy (fs : List Field)
  | having (p : Predicate)
  | orderBy (fs : List Field)
  | limit (n : Int64)
  | offset (n : Int64)
  | member (m : Member)

def apply (q : Select) : Step → Select
  | .named asName => { q with asName }
  | .common ctes => { q with ctes := register q.ctes ctes }
  | .fields fs => { q with fields := q.fields ++ fs }
  | .distinct => { q with distinct := true }
  | .distinctOn fs => { q with distinctOn := q.distinctOn ++ fs }
  | .source t => { q with source := some t }
  | .join j => { q with joins := q.joins ++ [j] }
  | .condition p => { q with conditions := q.conditions ++ [p] }
  | .groupBy fs => { q with groupBy := q.groupBy ++ fs }
  | .having p => { q with having := q.having ++ [p] }
  | .orderBy fs => { q with orderBy := q.orderBy ++ fs }
  | .limit n => { q with limit := some (magnitude n) }
  | .offset n => { q with offset := some (magnitude n) }
  | .member m => { q with members := q.members ++ [m] }

end Select

end BoundSql.Sql
