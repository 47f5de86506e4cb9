import BoundSql.Sql.Change
import BoundSql.Sql.Insert

/-!
# Clauses

Each step of building a statement works on one clause. The four kinds of statement share their
clauses, so that USING of a deletion is the same clause as FROM of a select.
-/
namespace BoundSql.Sql

/-- What a step of building a statement changes. -/
inductive Clause where
  | asName
  | common
  | fields
  | distinct
  | distinctOn
  | source
  | joins
  | conditions
  | groupBy
  | having
  | orderBy
  | limit
  | offset
  | members
  | assignments
  | targets
  /-- The columns of an insertion and its rows: an item can declare the columns. -/
  | rows
  | select
  | conflict
  | onDuplicate
  | returning
  deriving DecidableEq, Repr

def Select.Step.clause : Select.Step → Clause
  | .named _ => .asName
  | .common _ => .common
  | .fields _ => .fields
  | .distinct => .distinct
  | .distinctOn _ => .distinctOn
  | .source _ => .source
  | .join _ => .joins
  | .condition _ => .conditions
  | .groupBy _ => .groupBy
  | .having _ => .having
  | .orderBy _ => .orderBy
  | .limit _ => .limit
  | .offset _ => .offset
  | .member _ => .members

def Insert.Step.clause : Insert.Step → Clause
  | .named _ => .asName
  | .common _ => .common
  | .columns _ => .rows
  | .row _ => .rows
  | .items _ => .rows
  | .source _ => .select
  | .conflict _ => .conflict
  | .resolution _ => .conditions
  | .onDuplicate _ => .onDuplicate
  | .returning _ => .returning

def Update.Step.clause : Update.Step → Clause
  | .named _ => .asName
  | .common _ => .common
  | .assign _ => .assignments
  | .source _ => .source
  | .join _ => .joins
  | .condition _ => .conditions
  | .orderBy _ => .orderBy
  | .limit _ => .limit
  | .returning _ => .returning

def Delete.Step.clause : Delete.Step → Clause
  | .named _ => .asName
  | .common _ => .common
  | .target _ => .targets
  | .source _ => .source
  | .join _ => .joins
  | .condition _ => .conditions
  | .orderBy _ => .orderBy
  | .limit _ => .limit
  | .returning _ => .returning

end BoundSql.Sql
