import BoundSql.Sql.Render

/-!
# Emission

Statements are compiled in one pass: every node of the tree writes itself behind what a writer
already holds, and a subquery, a common table or a member of a set operation writes into the same
writer as the statement around it. The dialect is that of the writer. `Node` collects what can be
written on its own.
-/
namespace BoundSql.Sql

/-- A change of the writer. -/
abbrev Emission := StateM Writer Unit

namespace Emission

/-- Write text as it is. -/
def text (s : String) : Emission := modify (·.pushText s)

/-- Write one character, as templates do. -/
def char (c : Char) : Emission := modify (·.pushChar c)

/-- Write a name, in quotes if it needs them. -/
def ident (name : String) : Emission := modify (·.pushIdent name)

/-- Write the placeholder of a value that is bound behind all before it. -/
def bound (v : Value) : Emission := modify (·.pushArg v)

/-- Write what the dialect of the writer asks for. -/
def forDialect (e : Dialect → Emission) : Emission := do e (← get).dialect

def skipIf (hidden : Bool) (e : Emission) : Emission := if hidden then pure () else e

/-- Write parts with a separator between two of them. -/
def separated (separator : String) : List Emission → Emission
  | [] => pure ()
  | [e] => e
  | e :: rest => do
      e
      text separator
      separated separator rest

def parenthesized (e : Emission) : Emission := do
  text "("
  e
  text ")"

def asName (name : String) : Emission := do
  text " AS "
  ident name

/-- A name after AS, unless there is none or it is the table's own. -/
def asNameOf (name own : String) : Emission :=
  skipIf (name.isEmpty || name = own) (asName name)

/-- The name of what the next name belongs to. -/
def owner (name : String) : Emission := do
  ident name
  text "."

/-- A comma-separated clause; without parts it is left out with its keyword. -/
def list (keyword : String) (es : List Emission) : Emission :=
  skipIf es.isEmpty do
    text keyword
    separated ", " es

/-- LIMIT or OFFSET, whose number is bound like any other value. -/
def number (keyword : String) : Option Int64 → Emission
  | none => pure ()
  | some n => do
      text keyword
      bound (.int n)

/-- The values of a list in parentheses; an empty list is `(NULL)`. -/
def valueList (vs : List Value) : Emission :=
  if vs.isEmpty then text "(NULL)" else parenthesized (separated ", " (vs.map bound))

def joins (joins : List Emission) : Emission :=
  skipIf joins.isEmpty do
    text " "
    separated " " joins

def source (keyword : String) : Option Emission → Emission
  | none => pure ()
  | some e => do
      text keyword
      e

/-- Fields with their names after AS. -/
def selected (fs : List Field) (es : List Emission) : List Emission :=
  List.zipWith
    (fun f e => do
      e
      skipIf f.asName.isEmpty (asName f.asName)) fs es

/-- The select list; one without fields is NULL. -/
def selectList (fs : List Field) (es : List Emission) : Emission :=
  if fs.isEmpty then text "NULL" else separated ", " (selected fs es)

def returning (fs : List Field) (es : List Emission) : Emission :=
  list " RETURNING " (selected fs es)

/-- Read a template once, filling its slots on the way. -/
def template : List Char → List Emission → Emission
  | '?' :: '?' :: rest, es => do
      char '?'
      template rest es
  | '?' :: rest, [] => do
      char '?'
      template rest []
  | '?' :: rest, e :: es => do
      e
      template rest es
  | c :: rest, es => do
      char c
      template rest es
  | [], _ => pure ()

def negation (negated : Bool) : Emission := if negated then text "NOT " else pure ()

/-- Members with their connective between them; parentheses are written around two or more. -/
def group (negated : Bool) (connective : Connective) : List Emission → Emission
  | [] => pure ()
  | [e] => do
      negation negated
      e
  | several => do
      negation negated
      parenthesized (separated (Condition.separator connective) several)

/-- A keyword in front of conditions that all hold. -/
def conditions (keyword : String) (es : List Emission) : Emission :=
  skipIf es.isEmpty do
    text (" " ++ keyword ++ " ")
    separated " AND " es

/-- DISTINCT ON wins over DISTINCT. -/
def distinct (distinct : Bool) (on : List Emission) : Emission :=
  if !on.isEmpty then do
    text "DISTINCT ON ("
    separated ", " on
    text ") "
  else if distinct then text "DISTINCT "
  else pure ()

def columns (es : List Emission) : Emission :=
  skipIf es.isEmpty do
    text " "
    parenthesized (separated ", " es)

/-- The rows of an insertion, else the select that gives them. -/
def content (rows : List Emission) (source : Option Emission) : Emission :=
  if !rows.isEmpty then do
    text " VALUES "
    separated ", " rows
  else
    match source with
    | none => pure ()
    | some e => do
        text " "
        e

/-- What a conflict is about: fields, else a constraint. -/
def conflictTarget (fields : List Emission) (constraint : String) : Emission :=
  if !fields.isEmpty then columns fields
  else
    skipIf constraint.isEmpty do
      text " ON CONSTRAINT "
      ident constraint

end Emission

open Emission (text ident bound separated parenthesized)

/-- A common table with what writes its body. -/
structure Entry where
  name : String
  recursive : Bool
  body : Emission

namespace Entry

/-- A definition: the name in front of its body. -/
def emit (e : Entry) : Emission := do
  ident e.name
  text " AS "
  parenthesized e.body

/-- Entries as they are registered, and behind them those of the others that have a new name. -/
def collect (registered others : List Entry) : List Entry := addAllNew name registered others

/-- The WITH clause of the entries with a space behind it, or nothing. -/
def clause (es : List Entry) : Emission :=
  Emission.skipIf es.isEmpty do
    text (if es.any (·.recursive) then "WITH RECURSIVE " else "WITH ")
    separated ", " (es.map emit)
    text " "

end Entry

/-- How a select is written: alone with its WITH clause, or as a member without it. -/
structure SelectEmission where
  explicit : List Entry
  /-- The common tables in FROM and joins, here and in the members at any depth. -/
  referenced : List Entry
  /-- The common tables of its own WITH clause. -/
  entries : List Entry
  /-- The select up to HAVING and its members. -/
  core : Emission
  tail : Emission
  isPlain : Bool

namespace SelectEmission

def body (s : SelectEmission) : Emission := do
  s.core
  s.tail

def emit (s : SelectEmission) : Emission := do
  Entry.clause s.entries
  s.body

/-- A member behind its operator. -/
def emitMember (operator : SetOperator) (s : SelectEmission) : Emission := do
  text (" " ++ operator.keyword ++ " ")
  if s.isPlain then s.core else parenthesized s.body

end SelectEmission

/-- A column is qualified unless its qualifier is excluded. -/
def Term.emit (excluded : List String) : Term → Emission
  | .literal v => bound v
  | .column qualifier name => do
      Emission.skipIf (qualifier.isEmpty || excluded.contains qualifier) (Emission.owner qualifier)
      ident name

def Direction.emit : Direction → Emission
  | .ascending => text " ASC"
  | .descending => text " DESC"

def NullOrder.emit : NullOrder → Emission
  | .first => text " NULLS FIRST"
  | .last => text " NULLS LAST"

/-- The order that a sort adds to a field. -/
def Marks.emit (m : Marks) : Emission := do
  m.direction.elim (pure ()) Direction.emit
  m.nulls.elim (pure ()) NullOrder.emit

namespace BaseTable

def emit (t : BaseTable) : Emission := do
  Emission.skipIf t.schema.isEmpty (Emission.owner t.schema)
  ident t.name

/-- A base table with its name after AS. -/
def emitReference (t : BaseTable) : Emission := do
  t.emit
  Emission.asNameOf t.asName t.name

/-- The target of an update; one without name is written NULL. -/
def emitTarget (t : BaseTable) : Emission :=
  if t.name.isEmpty then text "NULL" else t.emitReference

/-- The name after AS is left out in MySQL. -/
def emitInsertTarget (t : BaseTable) : Emission :=
  Emission.forDialect fun d =>
    if t.name.isEmpty then text "NULL"
    else if d = .postgres then t.emitReference
    else t.emit

/-- A target of a deletion. With USING, MySQL refers to it by the name given there. -/
def emitDeleteTarget (mysqlUsing : Bool) (t : BaseTable) : Emission :=
  if mysqlUsing then if t.asName.isEmpty then t.emit else ident t.asName
  else t.emitReference

/-- The targets that have a name, or NULL if there is none. -/
def emitDeleteTargets (hasUsing : Bool) (ts : List BaseTable) : Emission :=
  let named := ts.filter fun t => !t.name.isEmpty
  Emission.forDialect fun d =>
    if named.isEmpty then text "NULL"
    else separated ", " (named.map (emitDeleteTarget (d = .mysql && hasUsing)))

end BaseTable

mutual

/-- What fills a slot; a subquery stands in parentheses. -/
def Arg.emit (excluded : List String) : Arg → Emission
  | .value v => bound v
  | .field f => f.emit excluded
  | .query q => parenthesized q.emit
  | .list vs => Emission.valueList vs

def Arg.emitAll (excluded : List String) : List Arg → List Emission
  | [] => []
  | a :: rest => a.emit excluded :: Arg.emitAll excluded rest

def Arg.emitRows : List (List Arg) → List Emission
  | [] => []
  | row :: rest => parenthesized (separated ", " (Arg.emitAll [] row)) :: Arg.emitRows rest

/-- A field in front of its order; a verbatim one is copied. -/
def Field.emit (excluded : List String) : Field → Emission
  | .plain term marks => do
      term.emit excluded
      marks.emit
  | .derived template args marks => do
      Emission.template template.toList (Arg.emitAll excluded args)
      marks.emit
  | .verbatim sql => text sql
  | .condition p => p.emit excluded

def Field.emitAll (excluded : List String) : List Field → List Emission
  | [] => []
  | f :: rest => f.emit excluded :: Field.emitAll excluded rest

/-- A predicate writes NOT in front of itself if it is negated. -/
def Predicate.emit (excluded : List String) : Predicate → Emission
  | .template negated template args _ => do
      Emission.negation negated
      Emission.template template.toList (Arg.emitAll excluded args)
  | .group negated connective members _ =>
      Emission.group negated connective (Predicate.emitAll excluded members)
  | .flag negated term marks => do
      Emission.negation negated
      term.emit excluded
      marks.emit

def Predicate.emitAll (excluded : List String) : List Predicate → List Emission
  | [] => []
  | p :: rest => p.emit excluded :: Predicate.emitAll excluded rest

/-- Only the target leaves out qualifiers. -/
def Assignment.emit (excluded : List String) : Assignment → Emission
  | ⟨target, value⟩ => do
      target.emit excluded
      text " = "
      value.emit []

def Assignment.emitAll (excluded : List String) : List Assignment → List Emission
  | [] => []
  | a :: rest => a.emit excluded :: Assignment.emitAll excluded rest

/-- A table as FROM, USING and joins refer to it. -/
def Table.emit : Table → Emission
  | .base t => t.emitReference
  | .query q => do
      parenthesized q.emit
      Emission.asNameOf q.asName ""
  | .common c => do
      ident c.name
      Emission.asNameOf c.asName c.name

/-- The common table that a table is. -/
def Table.entries : Table → List Entry
  | .base _ => []
  | .query _ => []
  | .common c => [c.entry]

def Table.emit? : Option Table → Option Emission
  | none => none
  | some t => some t.emit

def Table.entries? : Option Table → List Entry
  | none => []
  | some t => t.entries

/-- The name after AS is not part of the definition. -/
def CommonTable.entry : CommonTable → Entry
  | ⟨name, _, recursive, query⟩ => ⟨name, recursive, query.emit⟩

def CommonTable.entries : List CommonTable → List Entry
  | [] => []
  | c :: rest => c.entry :: CommonTable.entries rest

/-- A join with its conditions behind ON, which is left out without them. -/
def Join.emit : Join → Emission
  | ⟨kind, table, conditions⟩ => do
      text kind.keyword
      text " "
      table.emit
      Emission.skipIf conditions.isEmpty do
        text " ON "
        Emission.group false .and (Predicate.emitAll [] conditions)

def Join.emitAll : List Join → List Emission
  | [] => []
  | j :: rest => j.emit :: Join.emitAll rest

/-- The common tables that the joins need, in order. -/
def Join.entries : List Join → List Entry
  | [] => []
  | ⟨_, table, _⟩ :: rest => table.entries ++ Join.entries rest

/-- A select with what it hands on to the statement around it. -/
def Select.emission : Select → SelectEmission
  | { dialect := _, asName := _, ctes, distinct, distinctOn, fields, source, joins, conditions,
      groupBy, having, orderBy, limit, offset, members } =>
    let members := Member.emissions members
    let explicit := CommonTable.entries ctes
    let referenced := Table.entries? source ++ Join.entries joins
      ++ members.flatMap fun (_, m) => m.referenced
    { explicit, referenced
      entries := Entry.collect explicit
        (referenced ++ members.flatMap fun (_, m) => m.explicit)
      core := do
        text "SELECT "
        Emission.distinct distinct (Field.emitAll [] distinctOn)
        Emission.selectList fields (Field.emitAll [] fields)
        Emission.source " FROM " (Table.emit? source)
        Emission.joins (Join.emitAll joins)
        Emission.conditions "WHERE" (Predicate.emitAll [] conditions)
        Emission.list " GROUP BY " (Field.emitAll [] groupBy)
        Emission.conditions "HAVING" (Predicate.emitAll [] having)
        members.forM fun (operator, m) => m.emitMember operator
      tail := do
        Emission.list " ORDER BY " (Field.emitAll [] orderBy)
        Emission.number " LIMIT " limit
        Emission.number " OFFSET " offset
      isPlain := orderBy.isEmpty && limit.isNone && offset.isNone && members.isEmpty }

def Member.emissions : List Member → List (SetOperator × SelectEmission)
  | [] => []
  | ⟨operator, query⟩ :: rest => (operator, query.emission) :: Member.emissions rest

def Select.emit? : Option Select → Option Emission
  | none => none
  | some s => some s.emission.emit

/-- A conflict clause; `resolution` is written behind its assignments. -/
def Conflict.emit? (excluded : List String) (resolution : Emission) : Option Conflict → Emission
  | none => pure ()
  | some ⟨fields, constraint, conditions, assignments⟩ => do
      text " ON CONFLICT"
      Emission.conflictTarget (Field.emitAll excluded fields) constraint
      Emission.conditions "WHERE" (Predicate.emitAll [] conditions)
      match assignments with
      | none => text " DO NOTHING"
      | some set => do
          text " DO UPDATE SET "
          separated ", " (Assignment.emitAll excluded set)
          resolution

/-- The common tables of an insertion are the ones registered with it. -/
def Insert.emit : Insert → Emission
  | { dialect := _, asName := _, ctes, ignore, target, columns, rows, source, conflict,
      resolution, onDuplicate, returning } => do
    let excluded := [target.qualifier]
    Entry.clause (CommonTable.entries ctes)
    text (if ignore then "INSERT IGNORE INTO " else "INSERT INTO ")
    target.emitInsertTarget
    Emission.columns (Field.emitAll excluded columns)
    Emission.content (Arg.emitRows rows) (Select.emit? source)
    Conflict.emit? excluded (Emission.conditions "WHERE" (Predicate.emitAll [] resolution)) conflict
    Emission.list " ON DUPLICATE KEY UPDATE " (Assignment.emitAll excluded onDuplicate)
    Emission.returning returning (Field.emitAll [] returning)

/-- The joins stand in front of SET in MySQL, and behind FROM in PostgreSQL. -/
def Update.emit : Update → Emission
  | { dialect := _, asName := _, ctes, target, assignments, source, joins, conditions, orderBy,
      limit, returning } =>
    Emission.forDialect fun d => do
      let excluded := if d = .postgres || joins.isEmpty then [target.qualifier] else []
      Entry.clause (Entry.collect (CommonTable.entries ctes)
        (Table.entries? source ++ Join.entries joins))
      text "UPDATE "
      target.emitTarget
      Emission.skipIf (d = .postgres) (Emission.joins (Join.emitAll joins))
      Emission.list " SET " (Assignment.emitAll excluded assignments)
      Emission.skipIf (d = .mysql) do
        Emission.source " FROM " (Table.emit? source)
        Emission.joins (Join.emitAll joins)
      Emission.conditions "WHERE" (Predicate.emitAll [] conditions)
      Emission.list " ORDER BY " (Field.emitAll [] orderBy)
      Emission.number " LIMIT " limit
      Emission.returning returning (Field.emitAll [] returning)

/-- Tables behind USING can be common tables too. -/
def Delete.emit : Delete → Emission
  | { dialect := _, asName := _, ctes, targets, source, joins, conditions, orderBy, limit,
      returning } => do
    Entry.clause (Entry.collect (CommonTable.entries ctes)
      (Table.entries? source ++ Join.entries joins))
    text "DELETE FROM "
    BaseTable.emitDeleteTargets source.isSome targets
    Emission.source " USING " (Table.emit? source)
    Emission.joins (Join.emitAll joins)
    Emission.conditions "WHERE" (Predicate.emitAll [] conditions)
    Emission.list " ORDER BY " (Field.emitAll [] orderBy)
    Emission.number " LIMIT " limit
    Emission.returning returning (Field.emitAll [] returning)

/-- A statement with its WITH clause. -/
def Query.emit : Query → Emission
  | .select s => s.emission.emit
  | .insert s => s.emit
  | .update s => s.emit
  | .delete s => s.emit

end

/-- What can be written on its own. -/
inductive Node where
  | arg (a : Arg)
  | field (f : Field)
  | predicate (p : Predicate)
  | fields (fs : List Field)
  /-- Fields with their names after AS. -/
  | selectList (fs : List Field)
  | assignments (set : List Assignment)
  | table (t : Table)
  | joins (js : List Join)
  | commonTables (cs : List CommonTable)
  | query (q : Query)

namespace Node

def emit (excluded : List String) : Node → Emission
  | .arg a => a.emit excluded
  | .field f => f.emit excluded
  | .predicate p => p.emit excluded
  | .fields fs => separated ", " (Field.emitAll excluded fs)
  | .selectList fs => separated ", " (Emission.selected fs (Field.emitAll excluded fs))
  | .assignments set => separated ", " (Assignment.emitAll excluded set)
  | .table t => t.emit
  | .joins js => separated " " (Join.emitAll js)
  | .commonTables cs => Entry.clause (CommonTable.entries cs)
  | .query q => q.emit

/-- The same node as a fragment, built without a writer. -/
def render (d : Dialect) (excluded : List String) : Node → Fragment
  | .arg a => a.render d excluded
  | .field f => f.render d excluded
  | .predicate p => (p.toCondition d excluded).render
  | .fields fs => Fragment.separated ", " (Field.renderAll d excluded fs)
  | .selectList fs => Fragment.separated ", " (selected fs (Field.renderAll d excluded fs))
  | .assignments set => Fragment.separated ", " (Assignment.renderAll d excluded set)
  | .table t => (t.source d).reference
  | .joins js => Fragment.separated " " ((Join.sources d js).map (·.reference))
  | .commonTables cs => Definition.clause (CommonTable.definitions d cs)
  | .query q => q.render d

end Node

/-- A statement in its own dialect, ready to be sent. -/
def Query.compile (q : Query) : Compiled := (q.emit.run (Writer.new q.dialect)).2.compiled

end BoundSql.Sql
