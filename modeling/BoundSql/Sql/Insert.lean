import BoundSql.Sql.Select

/-!
# Building insertions

Rows are given as values, as expressions, or item by item through the columns that each item sets.
-/
namespace BoundSql.Sql

/-- One column of a row and what goes into it. -/
structure ColumnSetting where
  column : Field
  value : Arg

namespace Insert

def empty (d : Dialect) (asName : String) (ctes : List CommonTable) (target : BaseTable)
    (ignore : Bool) : Insert :=
  { dialect := d, asName, ctes, target, ignore }

/-- Add one row from the settings of an item. While there are no columns, an item's settings
also declare them. -/
def addItem (q : Insert) (settings : List ColumnSetting) : Insert :=
  { q with
    columns := if q.columns.isEmpty then settings.map (·.column) else q.columns
    rows := q.rows ++ [settings.map (·.value)] }

inductive Step where
  | named (asName : String)
  | common (ctes : List CommonTable)
  | columns (fs : List Field)
  | row (args : List Arg)
  | items (items : List (List ColumnSetting))
  | source (s : Select)
  | conflict (c : Conflict)
  | resolution (p : Predicate)
  | onDuplicate (assignments : List Assignment)
  | returning (fs : List Field)

def apply (q : Insert) : Step → Insert
  | .named asName => { q with asName }
  | .common ctes => { q with ctes := register q.ctes ctes }
  | .columns fs => { q with columns := q.columns ++ fs }
  | .row args => { q with rows := q.rows ++ [args] }
  | .items items => items.foldl addItem q
  | .source s => { q with source := some s }
  | .conflict c => { q with conflict := some c }
  | .resolution p => { q with resolution := q.resolution ++ [p] }
  | .onDuplicate assignments => { q with onDuplicate := q.onDuplicate ++ assignments }
  | .returning fs => { q with returning := q.returning ++ fs }

end Insert

end BoundSql.Sql
