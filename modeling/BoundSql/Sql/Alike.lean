import BoundSql.Sql.Tree
import Mathlib.Data.List.Forall2
import Mathlib.Data.Option.Basic

/-!
# Statements alike

Two statements are alike if they differ in nothing but the contents of their bound values: the
literals of fields, the values and the elements of lists in arguments, and the numbers of LIMIT and
OFFSET. `R` relates each value of the one statement to the value at the same place of the other.
-/
namespace BoundSql.Sql

variable (R : Value → Value → Prop)

/-- The values of literals are related; columns are the same. -/
inductive Term.Alike : Term → Term → Prop
  | literal {v v' : Value} (h : R v v') : Term.Alike (.literal v) (.literal v')
  | column (qualifier name : String) : Term.Alike (.column qualifier name) (.column qualifier name)

/-- Numbers of LIMIT or OFFSET, both there or both absent. -/
abbrev NumberAlike : Option Int64 → Option Int64 → Prop :=
  Option.Rel fun n n' => R (.int n) (.int n')

mutual

/-- Lists are related element by element, so that they have one length. -/
inductive Arg.Alike : Arg → Arg → Prop
  | value {v v' : Value} (h : R v v') : Arg.Alike (.value v) (.value v')
  | field {f f' : Field} (h : Field.Alike f f') : Arg.Alike (.field f) (.field f')
  | query {q q' : Query} (h : Query.Alike q q') : Arg.Alike (.query q) (.query q')
  | list {vs vs' : List Value} (h : List.Forall₂ R vs vs') : Arg.Alike (.list vs) (.list vs')

/-- Templates and marks are the same. -/
inductive Field.Alike : Field → Field → Prop
  | plain {t t' : Term} (marks : Marks) (h : t.Alike R t') :
      Field.Alike (.plain t marks) (.plain t' marks)
  | derived {as as' : List Arg} (template : String) (marks : Marks)
      (h : List.Forall₂ Arg.Alike as as') :
      Field.Alike (.derived template as marks) (.derived template as' marks)
  | verbatim (sql : String) : Field.Alike (.verbatim sql) (.verbatim sql)
  | condition {p p' : Predicate} (h : Predicate.Alike p p') :
      Field.Alike (.condition p) (.condition p')

/-- The trees have one shape, with the same signs and connectives. -/
inductive Predicate.Alike : Predicate → Predicate → Prop
  | template {as as' : List Arg} (negated : Bool) (template asName : String)
      (h : List.Forall₂ Arg.Alike as as') :
      Predicate.Alike (.template negated template as asName) (.template negated template as' asName)
  | group {ps ps' : List Predicate} (negated : Bool) (connective : Connective) (asName : String)
      (h : List.Forall₂ Predicate.Alike ps ps') :
      Predicate.Alike (.group negated connective ps asName) (.group negated connective ps' asName)
  | flag {t t' : Term} (negated : Bool) (marks : Marks) (h : t.Alike R t') :
      Predicate.Alike (.flag negated t marks) (.flag negated t' marks)

inductive Assignment.Alike : Assignment → Assignment → Prop
  | mk {f f' : Field} {a a' : Arg} (target : Field.Alike f f') (value : Arg.Alike a a') :
      Assignment.Alike ⟨f, a⟩ ⟨f', a'⟩

/-- A table of the schema holds no values. -/
inductive Table.Alike : Table → Table → Prop
  | base (t : BaseTable) : Table.Alike (.base t) (.base t)
  | query {q q' : Query} (h : Query.Alike q q') : Table.Alike (.query q) (.query q')
  | common {c c' : CommonTable} (h : CommonTable.Alike c c') : Table.Alike (.common c) (.common c')

inductive CommonTable.Alike : CommonTable → CommonTable → Prop
  | mk {q q' : Query} (name asName : String) (recursive : Bool) (h : Query.Alike q q') :
      CommonTable.Alike ⟨name, asName, recursive, q⟩ ⟨name, asName, recursive, q'⟩

inductive Join.Alike : Join → Join → Prop
  | mk {t t' : Table} {ps ps' : List Predicate} (kind : JoinKind) (table : Table.Alike t t')
      (conditions : List.Forall₂ Predicate.Alike ps ps') :
      Join.Alike ⟨kind, t, ps⟩ ⟨kind, t', ps'⟩

/-- Two selects that differ in values at most, limits included. -/
inductive Select.Alike : Select → Select → Prop
  | mk {s s' : Select} (dialect : s.dialect = s'.dialect) (asName : s.asName = s'.asName)
      (ctes : List.Forall₂ CommonTable.Alike s.ctes s'.ctes)
      (distinct : s.distinct = s'.distinct)
      (distinctOn : List.Forall₂ Field.Alike s.distinctOn s'.distinctOn)
      (fields : List.Forall₂ Field.Alike s.fields s'.fields)
      (source : Option.Rel Table.Alike s.source s'.source)
      (joins : List.Forall₂ Join.Alike s.joins s'.joins)
      (conditions : List.Forall₂ Predicate.Alike s.conditions s'.conditions)
      (groupBy : List.Forall₂ Field.Alike s.groupBy s'.groupBy)
      (having : List.Forall₂ Predicate.Alike s.having s'.having)
      (orderBy : List.Forall₂ Field.Alike s.orderBy s'.orderBy)
      (limit : NumberAlike R s.limit s'.limit)
      (offset : NumberAlike R s.offset s'.offset)
      (members : List.Forall₂ Member.Alike s.members s'.members) : Select.Alike s s'

inductive Member.Alike : Member → Member → Prop
  | mk {s s' : Select} (operator : SetOperator) (query : Select.Alike s s') :
      Member.Alike ⟨operator, s⟩ ⟨operator, s'⟩

inductive Conflict.Alike : Conflict → Conflict → Prop
  | mk {c c' : Conflict} (fields : List.Forall₂ Field.Alike c.fields c'.fields)
      (constraint : c.constraint = c'.constraint)
      (conditions : List.Forall₂ Predicate.Alike c.conditions c'.conditions)
      (assignments : Option.Rel (List.Forall₂ Assignment.Alike) c.assignments c'.assignments) :
      Conflict.Alike c c'

/-- Two insertions that differ in values at most, with rows of the same lengths. -/
inductive Insert.Alike : Insert → Insert → Prop
  | mk {s s' : Insert} (dialect : s.dialect = s'.dialect) (asName : s.asName = s'.asName)
      (ctes : List.Forall₂ CommonTable.Alike s.ctes s'.ctes)
      (ignore : s.ignore = s'.ignore) (target : s.target = s'.target)
      (columns : List.Forall₂ Field.Alike s.columns s'.columns)
      (rows : List.Forall₂ (List.Forall₂ Arg.Alike) s.rows s'.rows)
      (source : Option.Rel Select.Alike s.source s'.source)
      (conflict : Option.Rel Conflict.Alike s.conflict s'.conflict)
      (resolution : List.Forall₂ Predicate.Alike s.resolution s'.resolution)
      (onDuplicate : List.Forall₂ Assignment.Alike s.onDuplicate s'.onDuplicate)
      (returning : List.Forall₂ Field.Alike s.returning s'.returning) : Insert.Alike s s'

inductive Update.Alike : Update → Update → Prop
  | mk {s s' : Update} (dialect : s.dialect = s'.dialect) (asName : s.asName = s'.asName)
      (ctes : List.Forall₂ CommonTable.Alike s.ctes s'.ctes)
      (target : s.target = s'.target)
      (assignments : List.Forall₂ Assignment.Alike s.assignments s'.assignments)
      (source : Option.Rel Table.Alike s.source s'.source)
      (joins : List.Forall₂ Join.Alike s.joins s'.joins)
      (conditions : List.Forall₂ Predicate.Alike s.conditions s'.conditions)
      (orderBy : List.Forall₂ Field.Alike s.orderBy s'.orderBy)
      (limit : NumberAlike R s.limit s'.limit)
      (returning : List.Forall₂ Field.Alike s.returning s'.returning) : Update.Alike s s'

inductive Delete.Alike : Delete → Delete → Prop
  | mk {s s' : Delete} (dialect : s.dialect = s'.dialect) (asName : s.asName = s'.asName)
      (ctes : List.Forall₂ CommonTable.Alike s.ctes s'.ctes)
      (targets : s.targets = s'.targets)
      (source : Option.Rel Table.Alike s.source s'.source)
      (joins : List.Forall₂ Join.Alike s.joins s'.joins)
      (conditions : List.Forall₂ Predicate.Alike s.conditions s'.conditions)
      (orderBy : List.Forall₂ Field.Alike s.orderBy s'.orderBy)
      (limit : NumberAlike R s.limit s'.limit)
      (returning : List.Forall₂ Field.Alike s.returning s'.returning) : Delete.Alike s s'

/-- Two statements of one kind that differ in values at most. -/
inductive Query.Alike : Query → Query → Prop
  | select {s s' : Select} (h : Select.Alike s s') : Query.Alike (.select s) (.select s')
  | insert {s s' : Insert} (h : Insert.Alike s s') : Query.Alike (.insert s) (.insert s')
  | update {s s' : Update} (h : Update.Alike s s') : Query.Alike (.update s) (.update s')
  | delete {s s' : Delete} (h : Delete.Alike s s') : Query.Alike (.delete s) (.delete s')

end

end BoundSql.Sql
