import BoundSql.Dialect
import BoundSql.Sql.Condition
import BoundSql.Value.Basic

/-!
# Statement trees

Fields, predicates, tables and the four kinds of query refer to each other, since a query can
stand wherever a table can and inside any template. An empty name after AS means that there is
none.
-/
namespace BoundSql.Sql

/-- What a plain field shows: a value to be bound, or a column with an optional qualifier. -/
inductive Term where
  | literal (v : Value)
  | column (qualifier name : String)

inductive Direction where
  | ascending
  | descending
  deriving DecidableEq, Repr

inductive NullOrder where
  | first
  | last
  deriving DecidableEq, Repr

/-- What can be added to a field: a name for a select list, and an order for a sort. -/
structure Marks where
  asName : String := ""
  direction : Option Direction := none
  nulls : Option NullOrder := none

/-- A table of the schema. -/
structure BaseTable where
  schema : String := ""
  name : String
  asName : String := ""
  deriving DecidableEq

inductive JoinKind where
  | inner
  | left
  | right
  | full
  | cross
  | custom (keyword : String)
  deriving DecidableEq

inductive SetOperator where
  | union
  | unionAll
  deriving DecidableEq, Repr

mutual

/-- What fills a slot of a template. -/
inductive Arg where
  | value (v : Value)
  | field (f : Field)
  | query (q : Query)
  | list (vs : List Value)

/-- An expression of a select list. -/
inductive Field where
  | plain (term : Term) (marks : Marks)
  | derived (template : String) (args : List Arg) (marks : Marks)
  | verbatim (sql : String)
  | condition (p : Predicate)

/-- What is true, false or unknown of a row. -/
inductive Predicate where
  | template (negated : Bool) (template : String) (args : List Arg) (asName : String)
  | group (negated : Bool) (connective : Connective) (members : List Predicate)
      (asName : String)
  /-- A column or a literal that is itself true or false. -/
  | flag (negated : Bool) (term : Term) (marks : Marks)

/-- A column and what it is set to. -/
structure Assignment where
  target : Field
  value : Arg

/-- What can stand in FROM, USING and joins. -/
inductive Table where
  | base (t : BaseTable)
  | query (q : Query)
  | common (c : CommonTable)

/-- A named query of a WITH clause. -/
structure CommonTable where
  name : String
  asName : String := ""
  recursive : Bool := false
  query : Query

/-- A table that is joined, with its conditions behind ON. -/
structure Join where
  kind : JoinKind
  table : Table
  conditions : List Predicate

/-- A select; its members are the other queries of a set operation. -/
structure Select where
  dialect : Dialect
  asName : String
  ctes : List CommonTable := []
  distinct : Bool := false
  distinctOn : List Field := []
  fields : List Field := []
  source : Option Table := none
  joins : List Join := []
  conditions : List Predicate := []
  groupBy : List Field := []
  having : List Predicate := []
  orderBy : List Field := []
  limit : Option Int64 := none
  offset : Option Int64 := none
  members : List Member := []

/-- A query that a set operation adds to another. -/
structure Member where
  operator : SetOperator
  query : Select

/-- What an insertion does with a row that is already there. No assignments means nothing. -/
structure Conflict where
  fields : List Field := []
  constraint : String := ""
  conditions : List Predicate := []
  assignments : Option (List Assignment) := none

/-- An insertion of rows, or of what a select gives. -/
structure Insert where
  dialect : Dialect
  asName : String
  ctes : List CommonTable := []
  ignore : Bool := false
  target : BaseTable
  columns : List Field := []
  rows : List (List Arg) := []
  source : Option Select := none
  conflict : Option Conflict := none
  /-- Conditions on the assignments of a conflict. -/
  resolution : List Predicate := []
  onDuplicate : List Assignment := []
  returning : List Field := []

/-- An update of one table. -/
structure Update where
  dialect : Dialect
  asName : String
  ctes : List CommonTable := []
  target : BaseTable
  assignments : List Assignment := []
  source : Option Table := none
  joins : List Join := []
  conditions : List Predicate := []
  orderBy : List Field := []
  limit : Option Int64 := none
  returning : List Field := []

/-- A deletion from some tables. -/
structure Delete where
  dialect : Dialect
  asName : String
  ctes : List CommonTable := []
  targets : List BaseTable
  source : Option Table := none
  joins : List Join := []
  conditions : List Predicate := []
  orderBy : List Field := []
  limit : Option Int64 := none
  returning : List Field := []

/-- The four statements, each of which stores the dialect that it was started in. -/
inductive Query where
  | select (s : Select)
  | insert (s : Insert)
  | update (s : Update)
  | delete (s : Delete)

end

/-- The name that columns of a table are qualified with. -/
def BaseTable.qualifier (t : BaseTable) : String := if t.asName.isEmpty then t.name else t.asName

def JoinKind.keyword : JoinKind → String
  | inner => "JOIN"
  | left => "LEFT JOIN"
  | right => "RIGHT JOIN"
  | full => "FULL JOIN"
  | cross => "CROSS JOIN"
  | custom keyword => keyword

def SetOperator.keyword : SetOperator → String
  | union => "UNION"
  | unionAll => "UNION ALL"

def Predicate.asName : Predicate → String
  | .template _ _ _ asName => asName
  | .group _ _ _ asName => asName
  | .flag _ _ marks => marks.asName

def Term.name : Term → String
  | .literal _ => ""
  | .column _ name => name

namespace Field

def asName : Field → String
  | .plain _ marks => marks.asName
  | .derived _ _ marks => marks.asName
  | .verbatim _ => ""
  | .condition p => p.asName

/-- The name of a column; other fields but verbatim ones have none. -/
def name : Field → String
  | .plain term _ => term.name
  | .derived .. => ""
  | .verbatim sql => sql
  | .condition (.flag _ term _) => term.name
  | .condition _ => ""

end Field

namespace Query

/-- The dialect of the outermost statement decides how all is written. -/
def dialect : Query → Dialect
  | .select s => s.dialect
  | .insert s => s.dialect
  | .update s => s.dialect
  | .delete s => s.dialect

def asName : Query → String
  | .select s => s.asName
  | .insert s => s.asName
  | .update s => s.asName
  | .delete s => s.asName

end Query

namespace Table

def asName : Table → String
  | .base t => t.asName
  | .query q => q.asName
  | .common c => c.asName

/-- The table's own name; a query has none. -/
def name : Table → String
  | .base t => t.name
  | .query _ => ""
  | .common c => c.name

/-- The name that columns of a table are qualified with. -/
def qualifier (t : Table) : String := if t.asName.isEmpty then t.name else t.asName

end Table

end BoundSql.Sql
