import BoundSql.Proofs.Emission
import BoundSql.Sql.Change
import BoundSql.Sql.Insert

/-!
# WITH clauses

The common tables registered with a statement stand in its WITH clause as they are stored; those in
its FROM, USING or joins or in those of a union member, and those registered with a member, come
behind them unless their name is taken. So every reference to a common table finds its definition.
No name is defined twice because no step of building a statement stores a name twice.
-/
namespace BoundSql.Sql

def Table.common? : Table → Option CommonTable
  | .base _ => none
  | .query _ => none
  | .common c => some c

theorem Table.mem_commons {ts : List Table} {c : CommonTable} :
    c ∈ ts.filterMap Table.common? ↔ .common c ∈ ts := by
  rw [List.mem_filterMap]
  constructor
  · rintro ⟨t, ht, htc⟩
    cases t with
    | base t => cases htc
    | query q => cases htc
    | common c' => exact Option.some.inj htc ▸ ht
  · exact fun h => ⟨.common c, h, rfl⟩

mutual

/-- The tables in FROM and in joins, of a select and of its members at any depth. -/
def Select.tables : Select → List Table
  | { source, joins, members, .. } =>
    source.toList ++ joins.map (·.table) ++ Member.tables members

def Member.tables : List Member → List Table
  | [] => []
  | ⟨_, query⟩ :: rest => query.tables ++ Member.tables rest

end

namespace Query

def ctes : Query → List CommonTable
  | .select s => s.ctes
  | .insert s => s.ctes
  | .update s => s.ctes
  | .delete s => s.ctes

/-- The tables in FROM, USING and joins. -/
def tables : Query → List Table
  | .select s => s.tables
  | .insert _ => []
  | .update s => s.source.toList ++ s.joins.map (·.table)
  | .delete s => s.source.toList ++ s.joins.map (·.table)

/-- The common tables registered with the members of a select. -/
def memberCtes : Query → List CommonTable
  | .select s => s.members.flatMap (·.query.ctes)
  | .insert _ => []
  | .update _ => []
  | .delete _ => []

/-- The common tables that a statement keeps: what is registered with it, and behind that whatever
else it needs under a name that is not taken. -/
def kept (q : Query) : List CommonTable :=
  register q.ctes (q.tables.filterMap Table.common? ++ q.memberCtes)

end Query

section Definitions

variable (d : Dialect)

theorem CommonTable.definition_name (c : CommonTable) : (c.definition d).name = c.name := by
  cases c
  rw [definition]

theorem CommonTable.definition_recursive (c : CommonTable) :
    (c.definition d).recursive = c.recursive := by
  cases c
  rw [definition]

theorem CommonTable.definitions_eq_map (cs : List CommonTable) :
    CommonTable.definitions d cs = cs.map (·.definition d) := by
  induction cs with
  | nil => rw [definitions, List.map_nil]
  | cons c cs ih => rw [definitions, ih, List.map_cons]

theorem Definition.collect_map (cs more : List CommonTable) :
    Definition.collect (cs.map (·.definition d)) (more.map (·.definition d)) =
      (register cs more).map (·.definition d) :=
  (map_addAllNew (CommonTable.definition_name d) cs more).symm

theorem Table.source_definitions (t : Table) :
    (t.source d).definitions = (t.common?.map (·.definition d)).toList := by
  cases t <;> rw [Table.source] <;> rfl

/-- The definitions that the tables of a statement need. -/
theorem Table.sources_definitions (source : Option Table) (joins : List Join) :
    ((Table.source? d source).map (·.definitions)).getD [] ++
        (Join.sources d joins).flatMap (·.definitions) =
      ((source.toList ++ joins.map (·.table)).filterMap Table.common?).map (·.definition d) := by
  have hjoins : (Join.sources d joins).flatMap (·.definitions) =
      ((joins.map (·.table)).filterMap Table.common?).map (·.definition d) := by
    induction joins with
    | nil => rw [Join.sources]; rfl
    | cons j joins ih =>
        obtain ⟨kind, table, conditions⟩ := j
        rw [Join.sources, List.flatMap_cons, ih, Join.source, Table.source_definitions]
        cases table <;> rfl
  rw [List.filterMap_append, List.map_append, hjoins]
  congr 1
  cases source with
  | none => rw [Table.source?]; rfl
  | some t =>
      rw [Table.source?]
      cases t <;> exact Table.source_definitions d _

theorem Select.explicit_compound (s : Select) :
    (s.compound d).explicit = s.ctes.map (·.definition d) := by
  cases s
  rw [compound, ← CommonTable.definitions_eq_map]
  rfl

theorem Member.explicit_compounds (ms : List Member) :
    (Member.compounds d ms).flatMap (fun c => c.2.explicit) =
      (ms.flatMap (·.query.ctes)).map (·.definition d) := by
  induction ms with
  | nil => rw [Member.compounds]; rfl
  | cons m ms ih =>
      obtain ⟨operator, query⟩ := m
      rw [Member.compounds, List.flatMap_cons, ih, List.flatMap_cons, List.map_append,
        Select.explicit_compound]

mutual

theorem Select.referenced_compound : ∀ s : Select,
    (s.compound d).referenced = (s.tables.filterMap Table.common?).map (·.definition d)
  | { source, joins, members, .. } => by
      rw [Select.compound, Compound.referenced, Select.tables, List.filterMap_append,
        List.map_append, Table.sources_definitions, Member.referenced_compounds members]

theorem Member.referenced_compounds : ∀ ms : List Member,
    Compound.referencedAll (Member.compounds d ms) =
      ((Member.tables ms).filterMap Table.common?).map (·.definition d)
  | [] => by
      rw [Member.compounds, Compound.referencedAll, Member.tables]
      rfl
  | ⟨operator, query⟩ :: rest => by
      rw [Member.compounds, Compound.referencedAll, Member.tables, List.filterMap_append,
        List.map_append, Select.referenced_compound query, Member.referenced_compounds rest]

end

theorem Select.definitions_compound (s : Select) :
    (s.compound d).definitions = (Query.select s).kept.map (·.definition d) := by
  have hdefinitions : (s.compound d).definitions = Definition.collect (s.compound d).explicit
      ((s.compound d).referenced ++ (s.compound d).members.flatMap fun c => c.2.explicit) := by
    cases s.compound d
    rw [Compound.definitions]
    rfl
  rw [hdefinitions, Select.members_compound, Select.explicit_compound, Select.referenced_compound,
    Member.explicit_compounds, ← List.map_append, Definition.collect_map]
  rfl

theorem withClause_eq (ctes : List CommonTable) (source : Option Table) (joins : List Join) :
    withClause (CommonTable.definitions d ctes) (Table.source? d source) (Join.sources d joins) =
      Definition.clause ((register ctes
        ((source.toList ++ joins.map (·.table)).filterMap Table.common?)).map
          (·.definition d)) := by
  unfold withClause
  rw [Table.sources_definitions, CommonTable.definitions_eq_map, Definition.collect_map]

end Definitions

/-- The clause that defines these common tables. -/
def CommonTable.clause (d : Dialect) (cs : List CommonTable) : Fragment :=
  if cs.isEmpty then []
  else
    Fragment.text (if cs.any (·.recursive) then "WITH RECURSIVE " else "WITH ")
      ++ Fragment.separated ", " (cs.map fun c =>
        Fragment.ident c.name ++ Fragment.text " AS " ++ (c.query.render d).parenthesized)
      ++ Fragment.text " "

theorem Definition.clause_map (d : Dialect) (cs : List CommonTable) :
    Definition.clause (cs.map (·.definition d)) = CommonTable.clause d cs := by
  have hrender (c : CommonTable) : (c.definition d).render =
      Fragment.ident c.name ++ Fragment.text " AS " ++ (c.query.render d).parenthesized := by
    cases c
    rw [CommonTable.definition]
    rfl
  unfold Definition.clause CommonTable.clause
  simp only [List.isEmpty_map, List.any_map, List.map_map, Function.comp_def, hrender,
    CommonTable.definition_recursive]

/-- How a statement starts behind its WITH clause. -/
def Query.keyword : Query → String
  | .select _ => "SELECT "
  | .insert s => if s.ignore then "INSERT IGNORE INTO " else "INSERT INTO "
  | .update _ => "UPDATE "
  | .delete _ => "DELETE FROM "

/-- The WITH clause of a statement defines what the statement keeps. -/
theorem Query.render_eq_clause (d : Dialect) (q : Query) :
    ∃ rest, q.render d = CommonTable.clause d q.kept ++ (Fragment.text q.keyword ++ rest) := by
  rw [Query.render.eq_def]
  cases q with
  | select s =>
      have hbody : ∃ rest, (s.compound d).body = Fragment.text "SELECT " ++ rest := by
        cases s
        rw [Select.compound, Compound.body]
        simp only [List.append_assoc]
        exact ⟨_, rfl⟩
      obtain ⟨rest, hrest⟩ := hbody
      refine ⟨rest, ?_⟩
      rw [← Definition.clause_map, ← Select.definitions_compound]
      exact congrArg (Definition.clause (s.compound d).definitions ++ ·) hrest
  | insert s =>
      -- An insertion has no tables of its own: it writes what is registered with it.
      have hkept : (Query.insert s).kept = s.ctes := rfl
      rw [hkept, ← Definition.clause_map, ← CommonTable.definitions_eq_map]
      cases s
      simp only [Insert.render, List.append_assoc]
      exact ⟨_, rfl⟩
  | update s =>
      have hkept : (Query.update s).kept = register s.ctes
          ((s.source.toList ++ s.joins.map (·.table)).filterMap Table.common?) := by
        simp only [kept, ctes, tables, memberCtes, List.append_nil]
      rw [hkept, ← Definition.clause_map, ← withClause_eq]
      cases s
      simp only [Update.render, @List.append_assoc Piece]
      exact ⟨_, rfl⟩
  | delete s =>
      have hkept : (Query.delete s).kept = register s.ctes
          ((s.source.toList ++ s.joins.map (·.table)).filterMap Table.common?) := by
        simp only [kept, ctes, tables, memberCtes, List.append_nil]
      rw [hkept, ← Definition.clause_map, ← withClause_eq]
      cases s
      simp only [Delete.render, @List.append_assoc Piece]
      exact ⟨_, rfl⟩

/-- No two of these common tables have the same name. -/
def Distinct (cs : List CommonTable) : Prop := (cs.map (·.name)).Nodup

/-- Registering is what keeps names apart. -/
theorem Distinct.register {cs : List CommonTable} (h : Distinct cs) (added : List CommonTable) :
    Distinct (Sql.register cs added) :=
  nodup_addAllNew h added

theorem distinct_register (cs : List CommonTable) : Distinct (register [] cs) :=
  nodup_addAllNew (by simp) cs

/-- The WITH clause defines no name twice if the statement stores none twice. -/
theorem Query.distinct_kept {q : Query} (h : Distinct q.ctes) : Distinct q.kept :=
  h.register _

/-- If each step registers its common tables, all steps register theirs in order. -/
theorem ctes_foldl {σ τ : Type} {ctes : σ → List CommonTable} {apply : σ → τ → σ}
    {registered : τ → List CommonTable}
    (hstep : ∀ s t, ctes (apply s t) = register (ctes s) (registered t)) (s : σ) (ts : List τ) :
    ctes (ts.foldl apply s) = register (ctes s) (ts.flatMap registered) := by
  induction ts generalizing s with
  | nil => rfl
  | cons t ts ih =>
      rw [List.foldl_cons, ih, hstep, List.flatMap_cons]
      exact (addAllNew_append _ _ _).symm

section Steps

def Select.Step.registered : Select.Step → List CommonTable
  | .common ctes => ctes
  | _ => []

theorem Select.ctes_apply (s : Select) (step : Select.Step) :
    (s.apply step).ctes = register s.ctes step.registered := by
  cases step <;> rfl

def Insert.Step.registered : Insert.Step → List CommonTable
  | .common ctes => ctes
  | _ => []

theorem Insert.ctes_apply (s : Insert) (step : Insert.Step) :
    (s.apply step).ctes = register s.ctes step.registered := by
  cases step with
  | items items =>
      have hitem (s : Insert) (settings : List ColumnSetting) :
          (s.addItem settings).ctes = register s.ctes [] := rfl
      have hitems := ctes_foldl hitem s items
      rwa [List.flatMap_eq_nil_iff.mpr fun _ _ => rfl] at hitems
  | _ => rfl

def Update.Step.registered : Update.Step → List CommonTable
  | .common ctes => ctes
  | _ => []

theorem Update.ctes_apply (s : Update) (step : Update.Step) :
    (s.apply step).ctes = register s.ctes step.registered := by
  cases step <;> rfl

def Delete.Step.registered : Delete.Step → List CommonTable
  | .common ctes => ctes
  | _ => []

theorem Delete.ctes_apply (s : Delete) (step : Delete.Step) :
    (s.apply step).ctes = register s.ctes step.registered := by
  cases step <;> rfl

/-- No step stores a name twice. -/
theorem Select.distinct_apply {s : Select} (h : Distinct s.ctes) (step : Select.Step) :
    Distinct (s.apply step).ctes := by
  rw [ctes_apply]
  exact h.register step.registered

theorem Insert.distinct_apply {s : Insert} (h : Distinct s.ctes) (step : Insert.Step) :
    Distinct (s.apply step).ctes := by
  rw [ctes_apply]
  exact h.register step.registered

theorem Update.distinct_apply {s : Update} (h : Distinct s.ctes) (step : Update.Step) :
    Distinct (s.apply step).ctes := by
  rw [ctes_apply]
  exact h.register step.registered

theorem Delete.distinct_apply {s : Delete} (h : Distinct s.ctes) (step : Delete.Step) :
    Distinct (s.apply step).ctes := by
  rw [ctes_apply]
  exact h.register step.registered

/-- If no step stores a name twice, no sequence of steps does. -/
theorem distinct_foldl {σ τ : Type} (ctes : σ → List CommonTable) {apply : σ → τ → σ}
    (hstep : ∀ s, Distinct (ctes s) → ∀ t, Distinct (ctes (apply s t))) {s : σ}
    (h : Distinct (ctes s)) (ts : List τ) : Distinct (ctes (ts.foldl apply s)) := by
  induction ts generalizing s with
  | nil => exact h
  | cons t ts ih => exact ih (hstep s h t)

end Steps

/-- The calls that build a statement: common tables registered beforehand, and steps. -/
inductive Construction where
  | select (d : Dialect) (asName : String) (base : List CommonTable) (steps : List Select.Step)
  | insert (d : Dialect) (asName : String) (base : List CommonTable) (target : BaseTable)
      (ignore : Bool) (steps : List Insert.Step)
  | update (d : Dialect) (asName : String) (base : List CommonTable) (target : BaseTable)
      (steps : List Update.Step)
  | delete (d : Dialect) (asName : String) (base : List CommonTable) (target : BaseTable)
      (steps : List Delete.Step)

namespace Construction

def query : Construction → Query
  | select d asName base steps =>
      .select (steps.foldl Select.apply (.empty d asName (register [] base)))
  | insert d asName base target ignore steps =>
      .insert (steps.foldl Insert.apply (.empty d asName (register [] base) target ignore))
  | update d asName base target steps =>
      .update (steps.foldl Update.apply (.empty d asName (register [] base) target))
  | delete d asName base target steps =>
      .delete (steps.foldl Delete.apply (.empty d asName (register [] base) target))

/-- The common tables that are registered explicitly, in the order of the calls. -/
def registered : Construction → List CommonTable
  | select _ _ base steps => base ++ steps.flatMap (·.registered)
  | insert _ _ base _ _ steps => base ++ steps.flatMap (·.registered)
  | update _ _ base _ steps => base ++ steps.flatMap (·.registered)
  | delete _ _ base _ steps => base ++ steps.flatMap (·.registered)

theorem ctes_query (b : Construction) : b.query.ctes = register [] b.registered := by
  cases b with
  | select d asName base steps =>
      exact (ctes_foldl Select.ctes_apply _ steps).trans (addAllNew_append [] base _).symm
  | insert d asName base target ignore steps =>
      exact (ctes_foldl Insert.ctes_apply _ steps).trans (addAllNew_append [] base _).symm
  | update d asName base target steps =>
      exact (ctes_foldl Update.ctes_apply _ steps).trans (addAllNew_append [] base _).symm
  | delete d asName base target steps =>
      exact (ctes_foldl Delete.ctes_apply _ steps).trans (addAllNew_append [] base _).symm

/-- A statement stores no name twice, however it is built. -/
theorem distinct_ctes (b : Construction) : Distinct b.query.ctes := by
  have hbase {base : List CommonTable} : Distinct (register [] base) := distinct_register base
  cases b with
  | select d asName base steps =>
      exact distinct_foldl Select.ctes (fun _ => Select.distinct_apply) hbase steps
  | insert d asName base target ignore steps =>
      exact distinct_foldl Insert.ctes (fun _ => Insert.distinct_apply) hbase steps
  | update d asName base target steps =>
      exact distinct_foldl Update.ctes (fun _ => Update.distinct_apply) hbase steps
  | delete d asName base target steps =>
      exact distinct_foldl Delete.ctes (fun _ => Delete.distinct_apply) hbase steps

/-- All common tables that can end up in the WITH clause, the explicitly registered ones first. -/
def offered (b : Construction) : List CommonTable :=
  b.registered ++ b.query.tables.filterMap Table.common? ++ b.query.memberCtes

theorem kept_query (b : Construction) : b.query.kept = register [] b.offered := by
  rw [Query.kept, ctes_query, offered, List.append_assoc]
  exact (addAllNew_append [] b.registered _).symm

end Construction

theorem CommonTable.clause_eq_nil_iff (d : Dialect) (cs : List CommonTable) :
    CommonTable.clause d cs = [] ↔ cs = [] := by
  cases cs with
  | nil => exact iff_of_true rfl rfl
  | cons c cs => exact iff_of_false (List.cons_ne_nil _ _) (List.cons_ne_nil c cs)

theorem CommonTable.clause_recursive_iff (d : Dialect) (cs : List CommonTable) :
    (∃ rest, CommonTable.clause d cs = Fragment.text "WITH RECURSIVE " ++ rest) ↔
      ∃ c ∈ cs, c.recursive := by
  cases cs with
  | nil => simp [clause, Fragment.text]
  | cons c cs =>
      rw [← List.any_eq_true, clause, if_neg (by simp)]
      cases (c :: cs).any (·.recursive) with
      | true => exact iff_of_true ⟨_, List.append_assoc _ _ _⟩ rfl
      | false =>
          refine iff_of_false (fun ⟨rest, h⟩ => ?_) Bool.false_ne_true
          exact absurd (Piece.text.inj (List.cons.inj h).1) (by decide)

/-- The WITH clause that a statement starts with defines what the statement keeps, of each name
the first common table, those registered with it in front. It is missing exactly if nothing is
kept, and recursive exactly if something that is kept is. What FROM, USING and joins refer to, also
those of union members, is defined there. A nested statement is written like this one, in the
dialect `d` of the outermost. -/
theorem with_clause_is_closed (b : Construction) (d : Dialect) :
    (∃ rest, Emits d b.query.emit
      (CommonTable.clause d b.query.kept ++ (Fragment.text b.query.keyword ++ rest))) ∧
    (CommonTable.clause d b.query.kept = [] ↔ b.query.kept = []) ∧
    ((∃ rest, CommonTable.clause d b.query.kept = Fragment.text "WITH RECURSIVE " ++ rest) ↔
      ∃ c ∈ b.query.kept, c.recursive) ∧
    (b.query.kept.map (·.name)).Nodup ∧
    b.query.kept.Sublist b.offered ∧
    (∀ n, b.query.kept.find? (·.name = n) = b.offered.find? (·.name = n)) ∧
    register [] b.registered <+: b.query.kept ∧
    ∀ c, .common c ∈ b.query.tables → ∃ c' ∈ b.query.kept, c'.name = c.name := by
  refine ⟨?_, CommonTable.clause_eq_nil_iff d _, CommonTable.clause_recursive_iff d _, ?_⟩
  · obtain ⟨rest, hrest⟩ := Query.render_eq_clause d b.query
    exact ⟨rest, hrest ▸ Query.emits d b.query⟩
  refine ⟨Query.distinct_kept b.distinct_ctes, ?_⟩
  rw [b.kept_query]
  refine ⟨addAllNew_sublist [] b.offered, find?_addAllNew [] b.offered, ?_, fun c hc => ?_⟩
  · unfold Construction.offered register
    rw [List.append_assoc, addAllNew_append]
    exact prefix_addAllNew _ _
  · have hoffered : c ∈ b.offered :=
      List.mem_append_left _ (List.mem_append_right _ (Table.mem_commons.mpr hc))
    exact List.mem_map.mp (mem_map_addAllNew.mpr (List.mem_map_of_mem hoffered))

end BoundSql.Sql
