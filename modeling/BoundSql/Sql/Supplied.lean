import BoundSql.Sql.Template
import BoundSql.Sql.Tree

/-!
# Supplied texts

The texts of a statement that its caller supplies, and that are written without being bound: names,
which can end up between double quotes, texts that are written as they are, and templates.
-/
namespace BoundSql.Sql

/-- What the caller hands over: a name, a template, or SQL that is written as it is. -/
inductive Supplied where
  | name (s : String)
  | verbatim (s : String)
  | template (format : String) (args : Nat)

/-- A bound value is not text that the caller supplies. -/
def Term.supplied : Term → List Supplied
  | .literal _ => []
  | .column qualifier name => [.name qualifier, .name name]

def Marks.supplied (m : Marks) : List Supplied := [.name m.asName]

def BaseTable.supplied (t : BaseTable) : List Supplied :=
  [.name t.schema, .name t.name, .name t.asName]

mutual

def Arg.supplied : Arg → List Supplied
  | .value _ => []
  | .field f => f.supplied
  | .query q => q.supplied
  | .list _ => []

def Arg.suppliedAll : List Arg → List Supplied
  | [] => []
  | a :: rest => a.supplied ++ Arg.suppliedAll rest

def Arg.suppliedRows : List (List Arg) → List Supplied
  | [] => []
  | row :: rest => Arg.suppliedAll row ++ Arg.suppliedRows rest

/-- A verbatim field is supplied as a whole. -/
def Field.supplied : Field → List Supplied
  | .plain term marks => term.supplied ++ marks.supplied
  | .derived format args marks =>
      .template format args.length :: (Arg.suppliedAll args ++ marks.supplied)
  | .verbatim sql => [.verbatim sql]
  | .condition p => p.supplied

def Field.suppliedAll : List Field → List Supplied
  | [] => []
  | f :: rest => f.supplied ++ Field.suppliedAll rest

/-- The names after AS of members count, though only some places write them. -/
def Predicate.supplied : Predicate → List Supplied
  | .template _ format args asName =>
      .template format args.length :: .name asName :: Arg.suppliedAll args
  | .group _ _ members asName => .name asName :: Predicate.suppliedAll members
  | .flag _ term marks => term.supplied ++ marks.supplied

def Predicate.suppliedAll : List Predicate → List Supplied
  | [] => []
  | p :: rest => p.supplied ++ Predicate.suppliedAll rest

def Assignment.supplied : Assignment → List Supplied
  | ⟨target, value⟩ => target.supplied ++ value.supplied

def Assignment.suppliedAll : List Assignment → List Supplied
  | [] => []
  | a :: rest => a.supplied ++ Assignment.suppliedAll rest

def Table.supplied : Table → List Supplied
  | .base t => t.supplied
  | .query q => q.supplied
  | .common c => c.supplied

def Table.supplied? : Option Table → List Supplied
  | none => []
  | some t => t.supplied

def CommonTable.supplied : CommonTable → List Supplied
  | ⟨name, asName, _, query⟩ => .name name :: .name asName :: query.supplied

def CommonTable.suppliedAll : List CommonTable → List Supplied
  | [] => []
  | c :: rest => c.supplied ++ CommonTable.suppliedAll rest

def Join.supplied : Join → List Supplied
  | ⟨kind, table, conditions⟩ =>
      .verbatim kind.keyword :: (table.supplied ++ Predicate.suppliedAll conditions)

def Join.suppliedAll : List Join → List Supplied
  | [] => []
  | j :: rest => j.supplied ++ Join.suppliedAll rest

/-- What is supplied to a select in any clause, its common tables and members included. -/
def Select.supplied : Select → List Supplied
  | { dialect := _, asName, ctes, distinct := _, distinctOn, fields, source, joins, conditions,
      groupBy, having, orderBy, limit := _, offset := _, members } =>
    .name asName :: (CommonTable.suppliedAll ctes ++ Field.suppliedAll distinctOn
      ++ Field.suppliedAll fields ++ Table.supplied? source ++ Join.suppliedAll joins
      ++ Predicate.suppliedAll conditions ++ Field.suppliedAll groupBy
      ++ Predicate.suppliedAll having ++ Field.suppliedAll orderBy ++ Member.suppliedAll members)

def Member.suppliedAll : List Member → List Supplied
  | [] => []
  | ⟨_, query⟩ :: rest => query.supplied ++ Member.suppliedAll rest

def Select.supplied? : Option Select → List Supplied
  | none => []
  | some s => s.supplied

def Assignment.supplied? : Option (List Assignment) → List Supplied
  | none => []
  | some set => Assignment.suppliedAll set

def Conflict.supplied? : Option Conflict → List Supplied
  | none => []
  | some ⟨fields, constraint, conditions, assignments⟩ =>
      .name constraint :: (Field.suppliedAll fields ++ Predicate.suppliedAll conditions
        ++ Assignment.supplied? assignments)

def Insert.supplied : Insert → List Supplied
  | { dialect := _, asName, ctes, ignore := _, target, columns, rows, source, conflict,
      resolution, onDuplicate, returning } =>
    .name asName :: (CommonTable.suppliedAll ctes ++ target.supplied
      ++ Field.suppliedAll columns ++ Arg.suppliedRows rows ++ Select.supplied? source
      ++ Conflict.supplied? conflict ++ Predicate.suppliedAll resolution
      ++ Assignment.suppliedAll onDuplicate ++ Field.suppliedAll returning)

def Update.supplied : Update → List Supplied
  | { dialect := _, asName, ctes, target, assignments, source, joins, conditions, orderBy,
      limit := _, returning } =>
    .name asName :: (CommonTable.suppliedAll ctes ++ target.supplied
      ++ Assignment.suppliedAll assignments ++ Table.supplied? source ++ Join.suppliedAll joins
      ++ Predicate.suppliedAll conditions ++ Field.suppliedAll orderBy
      ++ Field.suppliedAll returning)

def Delete.supplied : Delete → List Supplied
  | { dialect := _, asName, ctes, targets, source, joins, conditions, orderBy, limit := _,
      returning } =>
    .name asName :: (CommonTable.suppliedAll ctes ++ targets.flatMap BaseTable.supplied
      ++ Table.supplied? source ++ Join.suppliedAll joins ++ Predicate.suppliedAll conditions
      ++ Field.suppliedAll orderBy ++ Field.suppliedAll returning)

/-- What is supplied to a statement anywhere in it. -/
def Query.supplied : Query → List Supplied
  | .select s => s.supplied
  | .insert s => s.supplied
  | .update s => s.supplied
  | .delete s => s.supplied

end

end BoundSql.Sql
