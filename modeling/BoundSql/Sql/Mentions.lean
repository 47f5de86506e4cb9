import BoundSql.Sql.Render

/-!
# Mentions

What a statement says about tables outside of the queries nested in it: where it refers to a table
that rows come from or go to, and where it writes a column. Mentions are listed in the order in
which they are written. Members of a set operation, and the select that gives an insertion its rows,
belong to the statement; subqueries and common tables do not.
-/
namespace BoundSql.Sql

open Fragment (ident)

/-- A table as it stands in a reference, without its name after AS. -/
def Table.unnamed (d : Dialect) : Table → Fragment
  | .base t => t.render
  | .query q => (q.render d).parenthesized
  | .common c => ident c.name

/-- The name after AS that a reference writes; the table's own is not repeated. -/
def Table.asName? (t : Table) : Option String :=
  if t.asName.isEmpty || t.asName = t.name then none else some t.asName

inductive Mention where
  /-- A reference to a table, with the name after AS that is written there. -/
  | reference (table : Table) (asName : Option String)
  /-- A column, where these qualifiers are left out. -/
  | column (excluded : List String) (qualifier name : String)

namespace Mention

def render (d : Dialect) : Mention → Fragment
  | .reference table none => table.unnamed d
  | .reference table (some asName) => table.unnamed d ++ Fragment.asName asName
  | .column excluded qualifier name => (Term.column qualifier name).render excluded

end Mention

/-- The mentions in the arguments that the slots of a template are filled with. -/
def Template.mentions (template : String) (mentions : List (List Mention)) : List Mention :=
  (mentions.take ((parts template.toList).count .slot)).flatten

def Term.mentions (excluded : List String) : Term → List Mention
  | .literal _ => []
  | .column qualifier name => [.column excluded qualifier name]

mutual

def Arg.mentions (excluded : List String) : Arg → List Mention
  | .value _ => []
  | .field f => f.mentions excluded
  | .query _ => []
  | .list _ => []

def Arg.mentionsAll (excluded : List String) : List Arg → List (List Mention)
  | [] => []
  | a :: rest => a.mentions excluded :: Arg.mentionsAll excluded rest

def Field.mentions (excluded : List String) : Field → List Mention
  | .plain term _ => term.mentions excluded
  | .derived template args _ => Template.mentions template (Arg.mentionsAll excluded args)
  | .verbatim _ => []
  | .condition p => p.mentions excluded

def Predicate.mentions (excluded : List String) : Predicate → List Mention
  | .template _ template args _ => Template.mentions template (Arg.mentionsAll excluded args)
  | .group _ _ members _ => (Predicate.mentionsAll excluded members).flatten
  | .flag _ term _ => term.mentions excluded

def Predicate.mentionsAll (excluded : List String) : List Predicate → List (List Mention)
  | [] => []
  | p :: rest => p.mentions excluded :: Predicate.mentionsAll excluded rest

end

/-- Only the target leaves out qualifiers. -/
def Assignment.mentions (excluded : List String) : Assignment → List Mention
  | ⟨target, value⟩ => target.mentions excluded ++ value.mentions []

def Table.mentions (t : Table) : List Mention := [.reference t t.asName?]

def Join.mentions : Join → List Mention
  | ⟨_, table, conditions⟩ =>
      table.mentions ++ (Predicate.mentionsAll [] conditions).flatten

mutual

def Select.mentions : Select → List Mention
  | { dialect := _, asName := _, ctes := _, distinct := _, distinctOn, fields, source, joins,
      conditions, groupBy, having, orderBy, limit := _, offset := _, members } =>
    distinctOn.flatMap (·.mentions []) ++ fields.flatMap (·.mentions [])
      ++ source.toList.flatMap Table.mentions ++ joins.flatMap Join.mentions
      ++ conditions.flatMap (·.mentions []) ++ groupBy.flatMap (·.mentions [])
      ++ having.flatMap (·.mentions []) ++ Member.mentionsAll members
      ++ orderBy.flatMap (·.mentions [])

def Member.mentionsAll : List Member → List Mention
  | [] => []
  | ⟨_, query⟩ :: rest => query.mentions ++ Member.mentionsAll rest

end

/-- The target of a change; one without name is not written. -/
def BaseTable.mentions (t : BaseTable) (asName : Option String) : List Mention :=
  if t.name.isEmpty then [] else [.reference (.base t) asName]

/-- `resolution` is written behind the assignments. -/
def Conflict.mentions (excluded : List String) (resolution : List Predicate) (c : Conflict) :
    List Mention :=
  c.fields.flatMap (·.mentions excluded) ++ c.conditions.flatMap (·.mentions [])
    ++ c.assignments.toList.flatMap fun set =>
        set.flatMap (·.mentions excluded) ++ resolution.flatMap (·.mentions [])

/-- MySQL does not write the target's name after AS. Rows win over a select. -/
def Insert.mentions (d : Dialect) (s : Insert) : List Mention :=
  let excluded := [s.target.qualifier]
  s.target.mentions (if d = .postgres then (Table.base s.target).asName? else none)
    ++ s.columns.flatMap (·.mentions excluded)
    ++ (if s.rows.isEmpty then s.source.toList.flatMap Select.mentions
        else s.rows.flatMap fun row => row.flatMap (·.mentions []))
    ++ s.conflict.toList.flatMap (Conflict.mentions excluded s.resolution)
    ++ s.onDuplicate.flatMap (·.mentions excluded)
    ++ s.returning.flatMap (·.mentions [])

/-- MySQL writes the joins in front of the assignments, and no other source. -/
def Update.mentions (d : Dialect) (s : Update) : List Mention :=
  let excluded := if d = .postgres || s.joins.isEmpty then [s.target.qualifier] else []
  s.target.mentions (Table.base s.target).asName?
    ++ (if d = .mysql then s.joins.flatMap Join.mentions else [])
    ++ s.assignments.flatMap (·.mentions excluded)
    ++ (if d = .postgres then
          s.source.toList.flatMap Table.mentions ++ s.joins.flatMap Join.mentions
        else [])
    ++ s.conditions.flatMap (·.mentions [])
    ++ s.orderBy.flatMap (·.mentions [])
    ++ s.returning.flatMap (·.mentions [])

/-- The targets refer to tables themselves, but in MySQL not if there is USING. -/
def Delete.mentions (d : Dialect) (s : Delete) : List Mention :=
  (if d = .mysql && s.source.isSome then []
    else s.targets.flatMap fun t => t.mentions (Table.base t).asName?)
    ++ s.source.toList.flatMap Table.mentions
    ++ s.joins.flatMap Join.mentions
    ++ s.conditions.flatMap (·.mentions [])
    ++ s.orderBy.flatMap (·.mentions [])
    ++ s.returning.flatMap (·.mentions [])

def Query.mentions (d : Dialect) : Query → List Mention
  | .select s => s.mentions
  | .insert s => s.mentions d
  | .update s => s.mentions d
  | .delete s => s.mentions d

end BoundSql.Sql
