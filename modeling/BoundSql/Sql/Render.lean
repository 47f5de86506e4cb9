import BoundSql.Sql.Compound
import BoundSql.Sql.Template
import BoundSql.Sql.Writer

/-!
# Rendering

Every node of a statement tree has one fragment, given the dialect of the whole statement. Fields,
predicates and template arguments are rendered for a list of excluded qualifiers, which their
columns leave out; a subquery inside them is rendered without exclusions.
-/
namespace BoundSql.Sql

open Fragment (text ident bound separated parenthesized)

namespace Term

/-- A column without its qualifier if that is empty or excluded, or a placeholder. -/
def render (excluded : List String) : Term → Fragment
  | .literal v => bound v
  | .column qualifier name =>
      (if qualifier.isEmpty || excluded.contains qualifier then []
        else ident qualifier ++ text ".")
        ++ ident name

end Term

namespace Marks

/-- The order that a sort adds, behind the field. -/
def order (m : Marks) : Fragment :=
  (match m.direction with
    | some .descending => text " DESC"
    | some .ascending => text " ASC"
    | none => [])
  ++ (match m.nulls with
    | some .first => text " NULLS FIRST"
    | some .last => text " NULLS LAST"
    | none => [])

end Marks

namespace BaseTable

def render (t : BaseTable) : Fragment :=
  (if t.schema.isEmpty then [] else ident t.schema ++ text ".") ++ ident t.name

end BaseTable

/-- ` AS name`, unless there is no such name or it is the table's own. -/
def asNameOf (asName name : String) : Fragment :=
  if asName.isEmpty || asName = name then [] else Fragment.asName asName

/-- A base table with its name after AS. -/
def BaseTable.reference (t : BaseTable) : Fragment := t.render ++ asNameOf t.asName t.name

/-- A table where rows come from: its reference, and the definition that it needs. -/
structure Source where
  reference : Fragment
  definitions : List Definition

/-- A comma-separated list behind a keyword, or nothing. -/
def listClause (keyword : String) (fs : List Fragment) : Fragment :=
  if fs.isEmpty then [] else text keyword ++ separated ", " fs

/-- The elements of a select list, each with its name after AS. -/
def selected (fs : List Field) (rendered : List Fragment) : List Fragment :=
  List.zipWith
    (fun f r => r ++ (if f.asName.isEmpty then [] else Fragment.asName f.asName)) fs rendered

/-- A select list; an empty one selects NULL. -/
def selectList (fs : List Field) (rendered : List Fragment) : Fragment :=
  if fs.isEmpty then text "NULL" else separated ", " (selected fs rendered)

/-- RETURNING, or nothing without fields. -/
def returningClause (fs : List Field) (rendered : List Fragment) : Fragment :=
  listClause " RETURNING " (selected fs rendered)

/-- LIMIT or OFFSET with a placeholder. -/
def numberClause (keyword : String) : Option Int64 → Fragment
  | none => []
  | some n => text keyword ++ bound (.int n)

/-- The values of a list in parentheses; an empty one is `(NULL)`. -/
def valueList (vs : List Value) : Fragment :=
  if vs.isEmpty then text "(NULL)" else (separated ", " (vs.map bound)).parenthesized

def joinsClause (joins : List Source) : Fragment :=
  if joins.isEmpty then [] else text " " ++ separated " " (joins.map (·.reference))

def sourceClause (keyword : String) : Option Source → Fragment
  | none => []
  | some s => text keyword ++ s.reference

/-- Definitions of explicit common tables, then of those referenced. -/
def withClause (explicit : List Definition) (source : Option Source) (joins : List Source) :
    Fragment :=
  Definition.clause
    (Definition.collect explicit
      ((source.map (·.definitions)).getD [] ++ joins.flatMap (·.definitions)))

/-- The target of a change; one without name is written NULL. -/
def targetReference (t : BaseTable) : Fragment :=
  if t.name.isEmpty then text "NULL" else t.reference

/-- An insertion names its target after AS only in PostgreSQL. -/
def insertTarget (d : Dialect) (t : BaseTable) : Fragment :=
  if t.name.isEmpty then text "NULL"
  else if d = .postgres then t.reference else t.render

/-- The targets of a deletion. With USING, MySQL refers to them by the names given there. -/
def deleteTargets (d : Dialect) (hasUsing : Bool) (ts : List BaseTable) : Fragment :=
  let named := ts.filter fun t => !t.name.isEmpty
  if named.isEmpty then text "NULL"
  else
    separated ", " (named.map fun t =>
      if d = .mysql && hasUsing then
        if t.asName.isEmpty then t.render else ident t.asName
      else t.reference)

mutual

/-- What fills a slot; a subquery stands in parentheses. -/
def Arg.render (d : Dialect) (excluded : List String) : Arg → Fragment
  | .value v => bound v
  | .field f => f.render d excluded
  | .query q => (q.render d).parenthesized
  | .list vs => valueList vs

def Arg.renderAll (d : Dialect) (excluded : List String) : List Arg → List Fragment
  | [] => []
  | a :: rest => a.render d excluded :: Arg.renderAll d excluded rest

/-- Rows of an insertion leave out no qualifiers. -/
def Arg.renderRows (d : Dialect) : List (List Arg) → List Fragment
  | [] => []
  | row :: rest =>
      (separated ", " (Arg.renderAll d [] row)).parenthesized :: Arg.renderRows d rest

/-- A field in front of its order. -/
def Field.render (d : Dialect) (excluded : List String) : Field → Fragment
  | .plain term marks => term.render excluded ++ marks.order
  | .derived template args marks =>
      Template.expanded template (Arg.renderAll d excluded args) ++ marks.order
  | .verbatim sql => text sql
  | .condition p => (p.toCondition d excluded).render

def Field.renderAll (d : Dialect) (excluded : List String) : List Field → List Fragment
  | [] => []
  | f :: rest => f.render d excluded :: Field.renderAll d excluded rest

/-- A predicate with its leaves rendered and its groups kept. -/
def Predicate.toCondition (d : Dialect) (excluded : List String) : Predicate → Condition
  | .template negated template args _ =>
      .atom negated (Template.expanded template (Arg.renderAll d excluded args))
  | .group negated connective members _ =>
      .group negated connective (Predicate.toConditions d excluded members)
  | .flag negated term marks => .atom negated (term.render excluded ++ marks.order)

def Predicate.toConditions (d : Dialect) (excluded : List String) :
    List Predicate → List Condition
  | [] => []
  | p :: rest => p.toCondition d excluded :: Predicate.toConditions d excluded rest

/-- The target leaves out excluded qualifiers, the value keeps all of its own. -/
def Assignment.render (d : Dialect) (excluded : List String) : Assignment → Fragment
  | ⟨target, value⟩ => target.render d excluded ++ text " = " ++ value.render d []

def Assignment.renderAll (d : Dialect) (excluded : List String) :
    List Assignment → List Fragment
  | [] => []
  | a :: rest => a.render d excluded :: Assignment.renderAll d excluded rest

/-- How a table is referred to, and the definitions that it needs. -/
def Table.source (d : Dialect) : Table → Source
  | .base t => ⟨t.reference, []⟩
  | .query q => ⟨(q.render d).parenthesized ++ asNameOf q.asName "", []⟩
  | .common c => ⟨ident c.name ++ asNameOf c.asName c.name, [c.definition d]⟩

def Table.source? (d : Dialect) : Option Table → Option Source
  | none => none
  | some t => some (t.source d)

/-- A common table as its WITH clause defines it, without its name after AS. -/
def CommonTable.definition (d : Dialect) : CommonTable → Definition
  | ⟨name, _, recursive, query⟩ => ⟨name, recursive, query.render d⟩

def CommonTable.definitions (d : Dialect) : List CommonTable → List Definition
  | [] => []
  | c :: rest => c.definition d :: CommonTable.definitions d rest

/-- A join behind its keyword, with its conditions as one group. -/
def Join.source (d : Dialect) : Join → Source
  | ⟨kind, table, conditions⟩ =>
      let s := table.source d
      let group := Condition.group false .and (Predicate.toConditions d [] conditions)
      ⟨text kind.keyword ++ text " " ++ s.reference
          ++ (if conditions.isEmpty then [] else text " ON " ++ group.render),
        s.definitions⟩

def Join.sources (d : Dialect) : List Join → List Source
  | [] => []
  | j :: rest => j.source d :: Join.sources d rest

/-- A select taken apart into what a statement around it writes at different places. -/
def Select.compound (d : Dialect) : Select → Compound
  | { dialect := _, asName := _, ctes, distinct, distinctOn, fields, source, joins, conditions,
      groupBy, having, orderBy, limit, offset, members } =>
    let source := Table.source? d source
    let joins := Join.sources d joins
    .node (CommonTable.definitions d ctes)
      ((source.map (·.definitions)).getD [] ++ joins.flatMap (·.definitions))
      (text "SELECT "
        ++ (if !distinctOn.isEmpty then
              text "DISTINCT ON (" ++ separated ", " (Field.renderAll d [] distinctOn)
                ++ text ") "
            else if distinct then text "DISTINCT "
            else [])
        ++ selectList fields (Field.renderAll d [] fields)
        ++ sourceClause " FROM " source ++ joinsClause joins
        ++ Condition.clause "WHERE" (Predicate.toConditions d [] conditions)
        ++ listClause " GROUP BY " (Field.renderAll d [] groupBy)
        ++ Condition.clause "HAVING" (Predicate.toConditions d [] having))
      (listClause " ORDER BY " (Field.renderAll d [] orderBy)
        ++ numberClause " LIMIT " limit ++ numberClause " OFFSET " offset)
      (Member.compounds d members)

def Member.compounds (d : Dialect) : List Member → List (SetOperator × Compound)
  | [] => []
  | ⟨operator, query⟩ :: rest => (operator, query.compound d) :: Member.compounds d rest

def Select.render? (d : Dialect) : Option Select → Fragment
  | none => []
  | some s => (s.compound d).render

/-- A conflict clause; `resolution` is rendered behind its assignments. -/
def Conflict.render? (d : Dialect) (excluded : List String) (resolution : Fragment) :
    Option Conflict → Fragment
  | none => []
  | some ⟨fields, constraint, conditions, assignments⟩ =>
      text " ON CONFLICT"
        ++ (if !fields.isEmpty then
              text " " ++ (separated ", " (Field.renderAll d excluded fields)).parenthesized
            else if !constraint.isEmpty then text " ON CONSTRAINT " ++ ident constraint
            else [])
        ++ Condition.clause "WHERE" (Predicate.toConditions d [] conditions)
        ++ (match assignments with
            | none => text " DO NOTHING"
            | some set =>
                text " DO UPDATE SET " ++ separated ", " (Assignment.renderAll d excluded set)
                  ++ resolution)

/-- An insertion with its own common tables only. -/
def Insert.render (d : Dialect) : Insert → Fragment
  | { dialect := _, asName := _, ctes, ignore, target, columns, rows, source, conflict,
      resolution, onDuplicate, returning } =>
    let excluded := [target.qualifier]
    Definition.clause (CommonTable.definitions d ctes)
      ++ text (if ignore then "INSERT IGNORE INTO " else "INSERT INTO ")
      ++ insertTarget d target
      ++ (if columns.isEmpty then []
          else text " " ++ (separated ", " (Field.renderAll d excluded columns)).parenthesized)
      ++ (if !rows.isEmpty then text " VALUES " ++ separated ", " (Arg.renderRows d rows)
          else if source.isSome then text " " ++ Select.render? d source
          else [])
      ++ Conflict.render? d excluded
          (Condition.clause "WHERE" (Predicate.toConditions d [] resolution)) conflict
      ++ listClause " ON DUPLICATE KEY UPDATE " (Assignment.renderAll d excluded onDuplicate)
      ++ returningClause returning (Field.renderAll d [] returning)

/-- MySQL joins stand before SET, PostgreSQL sources and joins behind it. -/
def Update.render (d : Dialect) : Update → Fragment
  | { dialect := _, asName := _, ctes, target, assignments, source, joins, conditions, orderBy,
      limit, returning } =>
    let source := Table.source? d source
    let joins := Join.sources d joins
    let excluded := if d = .postgres || joins.isEmpty then [target.qualifier] else []
    withClause (CommonTable.definitions d ctes) source joins
      ++ text "UPDATE " ++ targetReference target
      ++ (if d = .mysql then joinsClause joins else [])
      ++ listClause " SET " (Assignment.renderAll d excluded assignments)
      ++ (if d = .postgres then sourceClause " FROM " source ++ joinsClause joins else [])
      ++ Condition.clause "WHERE" (Predicate.toConditions d [] conditions)
      ++ listClause " ORDER BY " (Field.renderAll d [] orderBy)
      ++ numberClause " LIMIT " limit
      ++ returningClause returning (Field.renderAll d [] returning)

/-- A deletion with the common tables of USING and of its joins. -/
def Delete.render (d : Dialect) : Delete → Fragment
  | { dialect := _, asName := _, ctes, targets, source, joins, conditions, orderBy, limit,
      returning } =>
    let source := Table.source? d source
    let joins := Join.sources d joins
    withClause (CommonTable.definitions d ctes) source joins
      ++ text "DELETE FROM " ++ deleteTargets d source.isSome targets
      ++ sourceClause " USING " source ++ joinsClause joins
      ++ Condition.clause "WHERE" (Predicate.toConditions d [] conditions)
      ++ listClause " ORDER BY " (Field.renderAll d [] orderBy)
      ++ numberClause " LIMIT " limit
      ++ returningClause returning (Field.renderAll d [] returning)

/-- A statement as a fragment of the dialect. -/
def Query.render (d : Dialect) : Query → Fragment
  | .select s => (s.compound d).render
  | .insert s => s.render d
  | .update s => s.render d
  | .delete s => s.render d

end

/-- A table without its name after AS, and a query without parentheses. -/
def Table.body (d : Dialect) : Table → Fragment
  | .base t => t.render
  | .query q => q.render d
  | .common c => ident c.name

end BoundSql.Sql
