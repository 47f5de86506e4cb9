import BoundSql.Proofs.Placeholders
import BoundSql.Sql.Nested

/-!
# Portability

A statement is rendered in the dialect that it is compiled for. The dialects stored in it are read
nowhere else, and the one that it is compiled for only where an insertion names its target, where an
update has further tables and where a deletion has USING.
-/
namespace BoundSql.Sql

/-- The statement itself is written the same in all dialects but for its placeholders. -/
def Query.IsNeutral : Query → Prop
  | .select _ => True
  | .insert s => s.target.asName = "" ∨ s.target.asName = s.target.name
  | .update s => s.joins = [] ∧ s.source = none
  | .delete s => s.source = none

/-- The statement itself has the same fragment in both dialects. -/
def Query.SameIn (d d' : Dialect) (q : Query) : Prop := d' = d ∨ q.IsNeutral

section Names

variable (δ : Dialect)

/-- Recasting keeps names, lengths and whether something is there at all, which is all that the
clauses ask of their parts. -/
theorem Predicate.asName_recast (p : Predicate) : (p.recast δ).asName = p.asName := by
  cases p <;> rw [Predicate.recast] <;> rfl

theorem Field.asName_recast (f : Field) : (f.recast δ).asName = f.asName := by
  cases f with
  | condition p =>
      rw [Field.recast]
      exact p.asName_recast δ
  | plain | derived | verbatim => simp only [Field.recast, Field.asName]

theorem Query.asName_recast (q : Query) : (q.recast δ).asName = q.asName := by
  cases q with
  | select s => cases s; rw [Query.recast, Select.recast]; rfl
  | insert s => cases s; rw [Query.recast, Insert.recast]; rfl
  | update s => cases s; rw [Query.recast, Update.recast]; rfl
  | delete s => cases s; rw [Query.recast, Delete.recast]; rfl

/-- The recursion over a list of fields is a map. -/
theorem Field.recastAll_eq_map (fs : List Field) : Field.recastAll δ fs = fs.map (·.recast δ) := by
  induction fs with
  | nil => rw [Field.recastAll, List.map_nil]
  | cons f fs ih => rw [Field.recastAll, ih, List.map_cons]

@[simp] theorem Field.recastAll_isEmpty (fs : List Field) :
    (Field.recastAll δ fs).isEmpty = fs.isEmpty := by
  cases fs <;> simp [Field.recastAll]

@[simp] theorem Predicate.recastAll_isEmpty (ps : List Predicate) :
    (Predicate.recastAll δ ps).isEmpty = ps.isEmpty := by
  cases ps <;> simp [Predicate.recastAll]

@[simp] theorem Arg.recastRows_isEmpty (rows : List (List Arg)) :
    (Arg.recastRows δ rows).isEmpty = rows.isEmpty := by
  cases rows <;> simp [Arg.recastRows]

@[simp] theorem Select.recast?_isSome (s : Option Select) :
    (Select.recast? δ s).isSome = s.isSome := by
  cases s <;> simp [Select.recast?]

theorem selected_recastAll (fs : List Field) (rendered : List Fragment) :
    selected (Field.recastAll δ fs) rendered = selected fs rendered := by
  unfold selected
  rw [Field.recastAll_eq_map, List.zipWith_map_left]
  simp only [Field.asName_recast]

@[simp] theorem selectList_recastAll (fs : List Field) (rendered : List Fragment) :
    selectList (Field.recastAll δ fs) rendered = selectList fs rendered := by
  rw [selectList, selectList, Field.recastAll_isEmpty, selected_recastAll]

@[simp] theorem returningClause_recastAll (fs : List Field) (rendered : List Fragment) :
    returningClause (Field.recastAll δ fs) rendered = returningClause fs rendered := by
  rw [returningClause, returningClause, selected_recastAll]

end Names

section Places

variable {d d' : Dialect}

/-- A name after AS that is the own one is not written. -/
theorem asNameOf_of_own {asName name : String} (h : asName = "" ∨ asName = name) :
    asNameOf asName name = [] := by
  obtain rfl | rfl := h <;> simp [asNameOf]

/-- The target of an insertion shows the dialect only if its name after AS would be written. -/
theorem insertTarget_eq {t : BaseTable} (h : d' = d ∨ t.asName = "" ∨ t.asName = t.name) :
    insertTarget d' t = insertTarget d t := by
  obtain rfl | h := h
  · rfl
  · have hreference : t.reference = t.render := by
      rw [BaseTable.reference, asNameOf_of_own h, List.append_nil]
    simp only [insertTarget, hreference, ite_self]

/-- The targets of a deletion show the dialect only beside USING. -/
theorem deleteTargets_eq {source : Option Table} (h : d' = d ∨ source = none)
    (ts : List BaseTable) :
    deleteTargets d' source.isSome ts = deleteTargets d source.isSome ts := by
  obtain rfl | rfl := h
  · rfl
  · simp [deleteTargets]

end Places

section Recast

variable (δ : Dialect) {d d' : Dialect}

mutual

/-- A recast tree is rendered as the original if every statement nested in it is; by induction on
the tree. -/
theorem Arg.render_recast (excluded : List String) : ∀ a : Arg,
    (∀ s ∈ a.nested, s.SameIn d d') → (a.recast δ).render d' excluded = a.render d excluded
  | .value v, _ => by rw [Arg.recast, Arg.render, Arg.render]
  | .field f, h => by
      rw [Arg.nested] at h
      rw [Arg.recast, Arg.render, Arg.render, Field.render_recast excluded f h]
  | .query q, h => by
      rw [Arg.nested, List.forall_mem_cons] at h
      rw [Arg.recast, Arg.render, Arg.render, Query.render_recast q h.1 h.2]
  | .list vs, _ => by rw [Arg.recast, Arg.render, Arg.render]

theorem Arg.renderAll_recast (excluded : List String) : ∀ as : List Arg,
    (∀ s ∈ Arg.nestedAll as, s.SameIn d d') →
      Arg.renderAll d' excluded (Arg.recastAll δ as) = Arg.renderAll d excluded as
  | [], _ => by rw [Arg.recastAll, Arg.renderAll, Arg.renderAll]
  | a :: rest, h => by
      rw [Arg.nestedAll, List.forall_mem_append] at h
      rw [Arg.recastAll, Arg.renderAll, Arg.renderAll, Arg.render_recast excluded a h.1,
        Arg.renderAll_recast excluded rest h.2]

theorem Arg.renderRows_recast : ∀ rows : List (List Arg),
    (∀ s ∈ Arg.nestedRows rows, s.SameIn d d') →
      Arg.renderRows d' (Arg.recastRows δ rows) = Arg.renderRows d rows
  | [], _ => by rw [Arg.recastRows, Arg.renderRows, Arg.renderRows]
  | row :: rest, h => by
      rw [Arg.nestedRows, List.forall_mem_append] at h
      rw [Arg.recastRows, Arg.renderRows, Arg.renderRows, Arg.renderAll_recast [] row h.1,
        Arg.renderRows_recast rest h.2]

theorem Field.render_recast (excluded : List String) : ∀ f : Field,
    (∀ s ∈ f.nested, s.SameIn d d') → (f.recast δ).render d' excluded = f.render d excluded
  | .plain term marks, _ => by rw [Field.recast, Field.render, Field.render]
  | .derived template args marks, h => by
      rw [Field.nested] at h
      rw [Field.recast, Field.render, Field.render, Arg.renderAll_recast excluded args h]
  | .verbatim sql, _ => by rw [Field.recast, Field.render, Field.render]
  | .condition p, h => by
      rw [Field.nested] at h
      rw [Field.recast, Field.render, Field.render, Predicate.toCondition_recast excluded p h]

theorem Field.renderAll_recast (excluded : List String) : ∀ fs : List Field,
    (∀ s ∈ Field.nestedAll fs, s.SameIn d d') →
      Field.renderAll d' excluded (Field.recastAll δ fs) = Field.renderAll d excluded fs
  | [], _ => by rw [Field.recastAll, Field.renderAll, Field.renderAll]
  | f :: rest, h => by
      rw [Field.nestedAll, List.forall_mem_append] at h
      rw [Field.recastAll, Field.renderAll, Field.renderAll, Field.render_recast excluded f h.1,
        Field.renderAll_recast excluded rest h.2]

theorem Predicate.toCondition_recast (excluded : List String) : ∀ p : Predicate,
    (∀ s ∈ p.nested, s.SameIn d d') →
      (p.recast δ).toCondition d' excluded = p.toCondition d excluded
  | .template negated template args asName, h => by
      rw [Predicate.nested] at h
      rw [Predicate.recast, Predicate.toCondition, Predicate.toCondition,
        Arg.renderAll_recast excluded args h]
  | .group negated connective members asName, h => by
      rw [Predicate.nested] at h
      rw [Predicate.recast, Predicate.toCondition, Predicate.toCondition,
        Predicate.toConditions_recast excluded members h]
  | .flag negated term marks, _ => by
      rw [Predicate.recast, Predicate.toCondition, Predicate.toCondition]

theorem Predicate.toConditions_recast (excluded : List String) : ∀ ps : List Predicate,
    (∀ s ∈ Predicate.nestedAll ps, s.SameIn d d') →
      Predicate.toConditions d' excluded (Predicate.recastAll δ ps) =
        Predicate.toConditions d excluded ps
  | [], _ => by rw [Predicate.recastAll, Predicate.toConditions, Predicate.toConditions]
  | p :: rest, h => by
      rw [Predicate.nestedAll, List.forall_mem_append] at h
      rw [Predicate.recastAll, Predicate.toConditions, Predicate.toConditions,
        Predicate.toCondition_recast excluded p h.1,
        Predicate.toConditions_recast excluded rest h.2]

theorem Assignment.render_recast (excluded : List String) : ∀ a : Assignment,
    (∀ s ∈ a.nested, s.SameIn d d') → (a.recast δ).render d' excluded = a.render d excluded
  | ⟨target, value⟩, h => by
      rw [Assignment.nested, List.forall_mem_append] at h
      rw [Assignment.recast, Assignment.render, Assignment.render,
        Field.render_recast excluded target h.1, Arg.render_recast [] value h.2]

theorem Assignment.renderAll_recast (excluded : List String) : ∀ set : List Assignment,
    (∀ s ∈ Assignment.nestedAll set, s.SameIn d d') →
      Assignment.renderAll d' excluded (Assignment.recastAll δ set) =
        Assignment.renderAll d excluded set
  | [], _ => by rw [Assignment.recastAll, Assignment.renderAll, Assignment.renderAll]
  | a :: rest, h => by
      rw [Assignment.nestedAll, List.forall_mem_append] at h
      rw [Assignment.recastAll, Assignment.renderAll, Assignment.renderAll,
        Assignment.render_recast excluded a h.1, Assignment.renderAll_recast excluded rest h.2]

theorem Table.source_recast : ∀ t : Table,
    (∀ s ∈ t.nested, s.SameIn d d') → (t.recast δ).source d' = t.source d
  | .base t, _ => by rw [Table.recast, Table.source, Table.source]
  | .query q, h => by
      rw [Table.nested, List.forall_mem_cons] at h
      rw [Table.recast, Table.source, Table.source, Query.render_recast q h.1 h.2,
        Query.asName_recast]
  | .common c, h => by
      rw [Table.nested] at h
      have hdefinition := CommonTable.definition_recast c h
      obtain ⟨name, asName, recursive, query⟩ := c
      rw [Table.recast, Table.source, Table.source, hdefinition, CommonTable.recast]

theorem Table.source?_recast : ∀ t : Option Table,
    (∀ s ∈ Table.nested? t, s.SameIn d d') →
      Table.source? d' (Table.recast? δ t) = Table.source? d t
  | none, _ => by rw [Table.recast?, Table.source?, Table.source?]
  | some t, h => by
      rw [Table.nested?] at h
      rw [Table.recast?, Table.source?, Table.source?, Table.source_recast t h]

theorem CommonTable.definition_recast : ∀ c : CommonTable,
    (∀ s ∈ c.nested, s.SameIn d d') → (c.recast δ).definition d' = c.definition d
  | ⟨name, asName, recursive, query⟩, h => by
      rw [CommonTable.nested, List.forall_mem_cons] at h
      rw [CommonTable.recast, CommonTable.definition, CommonTable.definition,
        Query.render_recast query h.1 h.2]

theorem CommonTable.definitions_recast : ∀ cs : List CommonTable,
    (∀ s ∈ CommonTable.nestedAll cs, s.SameIn d d') →
      CommonTable.definitions d' (CommonTable.recastAll δ cs) = CommonTable.definitions d cs
  | [], _ => by
      rw [CommonTable.recastAll, CommonTable.definitions, CommonTable.definitions]
  | c :: rest, h => by
      rw [CommonTable.nestedAll, List.forall_mem_append] at h
      rw [CommonTable.recastAll, CommonTable.definitions, CommonTable.definitions,
        CommonTable.definition_recast c h.1, CommonTable.definitions_recast rest h.2]

theorem Join.source_recast : ∀ j : Join,
    (∀ s ∈ j.nested, s.SameIn d d') → (j.recast δ).source d' = j.source d
  | ⟨kind, table, conditions⟩, h => by
      rw [Join.nested, List.forall_mem_append] at h
      rw [Join.recast, Join.source, Join.source, Table.source_recast table h.1,
        Predicate.toConditions_recast [] conditions h.2, Predicate.recastAll_isEmpty]

theorem Join.sources_recast : ∀ js : List Join,
    (∀ s ∈ Join.nestedAll js, s.SameIn d d') →
      Join.sources d' (Join.recastAll δ js) = Join.sources d js
  | [], _ => by rw [Join.recastAll, Join.sources, Join.sources]
  | j :: rest, h => by
      rw [Join.nestedAll, List.forall_mem_append] at h
      rw [Join.recastAll, Join.sources, Join.sources, Join.source_recast j h.1,
        Join.sources_recast rest h.2]

/-- A select on its own never shows its dialect. -/
theorem Select.compound_recast : ∀ s : Select,
    (∀ q ∈ s.nested, q.SameIn d d') → (s.recast δ).compound d' = s.compound d
  | { dialect, asName, ctes, distinct, distinctOn, fields, source, joins, conditions, groupBy,
      having, orderBy, limit, offset, members }, h => by
      rw [Select.nested] at h
      simp only [List.forall_mem_append] at h
      obtain ⟨⟨⟨⟨⟨⟨⟨⟨⟨hctes, hdistinct⟩, hfields⟩, hsource⟩, hjoins⟩, hconditions⟩, hgroup⟩,
        hhaving⟩, horder⟩, hmembers⟩ := h
      simp only [Select.recast, Select.compound, CommonTable.definitions_recast ctes hctes,
        Field.renderAll_recast [] distinctOn hdistinct, Field.renderAll_recast [] fields hfields,
        Table.source?_recast source hsource, Join.sources_recast joins hjoins,
        Predicate.toConditions_recast [] conditions hconditions,
        Field.renderAll_recast [] groupBy hgroup, Predicate.toConditions_recast [] having hhaving,
        Field.renderAll_recast [] orderBy horder, Member.compounds_recast members hmembers,
        Field.recastAll_isEmpty, selectList_recastAll]

theorem Member.compounds_recast : ∀ ms : List Member,
    (∀ s ∈ Member.nestedAll ms, s.SameIn d d') →
      Member.compounds d' (Member.recastAll δ ms) = Member.compounds d ms
  | [], _ => by rw [Member.recastAll, Member.compounds, Member.compounds]
  | ⟨operator, query⟩ :: rest, h => by
      rw [Member.nestedAll, List.forall_mem_append, List.forall_mem_cons] at h
      rw [Member.recastAll, Member.compounds, Member.compounds,
        Select.compound_recast query h.1.2, Member.compounds_recast rest h.2]

theorem Select.render?_recast : ∀ s : Option Select,
    (∀ q ∈ Select.nested? s, q.SameIn d d') →
      Select.render? d' (Select.recast? δ s) = Select.render? d s
  | none, _ => by rw [Select.recast?, Select.render?, Select.render?]
  | some s, h => by
      rw [Select.nested?, List.forall_mem_cons] at h
      rw [Select.recast?, Select.render?, Select.render?, Select.compound_recast s h.2]

theorem Conflict.render?_recast (excluded : List String) (resolution : Fragment) :
    ∀ c : Option Conflict, (∀ s ∈ Conflict.nested? c, s.SameIn d d') →
      Conflict.render? d' excluded resolution (Conflict.recast? δ c) =
        Conflict.render? d excluded resolution c
  | none, _ => by rw [Conflict.recast?, Conflict.render?, Conflict.render?]
  | some ⟨fields, constraint, conditions, none⟩, h => by
      rw [Conflict.nested?, List.forall_mem_append, List.forall_mem_append] at h
      rw [Conflict.recast?, Assignment.recast?, Conflict.render?, Conflict.render?,
        Field.renderAll_recast excluded fields h.1.1, Field.recastAll_isEmpty,
        Predicate.toConditions_recast [] conditions h.1.2]
  | some ⟨fields, constraint, conditions, some set⟩, h => by
      rw [Conflict.nested?, List.forall_mem_append, List.forall_mem_append,
        Assignment.nested?] at h
      rw [Conflict.recast?, Assignment.recast?, Conflict.render?, Conflict.render?,
        Field.renderAll_recast excluded fields h.1.1, Field.recastAll_isEmpty,
        Predicate.toConditions_recast [] conditions h.1.2]
      simp only [Assignment.renderAll_recast excluded set h.2]

/-- An insertion shows its dialect in its target at most. -/
theorem Insert.render_recast : ∀ s : Insert, (Query.insert s).SameIn d d' →
    (∀ q ∈ s.nested, q.SameIn d d') → (s.recast δ).render d' = s.render d
  | { dialect, asName, ctes, ignore, target, columns, rows, source, conflict, resolution,
      onDuplicate, returning }, hself, h => by
      rw [Insert.nested] at h
      simp only [List.forall_mem_append] at h
      obtain ⟨⟨⟨⟨⟨⟨⟨hctes, hcolumns⟩, hrows⟩, hsource⟩, hconflict⟩, hresolution⟩, hduplicate⟩,
        hreturning⟩ := h
      simp only [Insert.recast, Insert.render, CommonTable.definitions_recast ctes hctes,
        insertTarget_eq hself, Field.renderAll_recast _ columns hcolumns,
        Arg.renderRows_recast rows hrows, Select.render?_recast source hsource,
        Conflict.render?_recast _ _ conflict hconflict,
        Predicate.toConditions_recast [] resolution hresolution,
        Assignment.renderAll_recast _ onDuplicate hduplicate,
        Field.renderAll_recast [] returning hreturning, Field.recastAll_isEmpty,
        Arg.recastRows_isEmpty, Select.recast?_isSome, returningClause_recastAll]

/-- Without further tables no part of an update moves, and its target is the only qualifier. -/
theorem Update.render_recast : ∀ s : Update, (Query.update s).SameIn d d' →
    (∀ q ∈ s.nested, q.SameIn d d') → (s.recast δ).render d' = s.render d
  | { dialect, asName, ctes, target, assignments, source, joins, conditions, orderBy, limit,
      returning }, hself, h => by
      rw [Update.nested] at h
      simp only [List.forall_mem_append] at h
      obtain ⟨⟨⟨⟨⟨⟨hctes, hassignments⟩, hsource⟩, hjoins⟩, hconditions⟩, horder⟩,
        hreturning⟩ := h
      simp only [Update.recast, Update.render, CommonTable.definitions_recast ctes hctes,
        Assignment.renderAll_recast _ assignments hassignments,
        Table.source?_recast source hsource, Join.sources_recast joins hjoins,
        Predicate.toConditions_recast [] conditions hconditions,
        Field.renderAll_recast [] orderBy horder, Field.renderAll_recast [] returning hreturning,
        returningClause_recastAll]
      obtain rfl | ⟨rfl, rfl⟩ := hself
      · rfl
      · cases d <;> cases d' <;> rfl

/-- A deletion shows its dialect in its targets at most. -/
theorem Delete.render_recast : ∀ s : Delete, (Query.delete s).SameIn d d' →
    (∀ q ∈ s.nested, q.SameIn d d') → (s.recast δ).render d' = s.render d
  | { dialect, asName, ctes, targets, source, joins, conditions, orderBy, limit, returning },
      hself, h => by
      rw [Delete.nested] at h
      simp only [List.forall_mem_append] at h
      obtain ⟨⟨⟨⟨⟨hctes, hsource⟩, hjoins⟩, hconditions⟩, horder⟩, hreturning⟩ := h
      simp only [Delete.recast, Delete.render, CommonTable.definitions_recast ctes hctes,
        Table.source?_recast source hsource, Join.sources_recast joins hjoins,
        Predicate.toConditions_recast [] conditions hconditions,
        Field.renderAll_recast [] orderBy horder, Field.renderAll_recast [] returning hreturning,
        returningClause_recastAll, Table.source?_isSome, deleteTargets_eq hself]

/-- Stored dialects are not read: a statement has the fragment that it has when they are all
replaced, in either of two dialects that write the statements in it the same. -/
theorem Query.render_recast : ∀ q : Query, q.SameIn d d' →
    (∀ s ∈ q.nested, s.SameIn d d') → (q.recast δ).render d' = q.render d
  | .select s, _, h => by
      rw [Query.nested] at h
      rw [Query.recast, Query.render, Query.render, Select.compound_recast s h]
  | .insert s, hself, h => by
      rw [Query.nested] at h
      rw [Query.recast, Query.render, Query.render, Insert.render_recast s hself h]
  | .update s, hself, h => by
      rw [Query.nested] at h
      rw [Query.recast, Query.render, Query.render, Update.render_recast s hself h]
  | .delete s, hself, h => by
      rw [Query.nested] at h
      rw [Query.recast, Query.render, Query.render, Delete.render_recast s hself h]

end

end Recast

/-- A statement started in a dialect has that dialect. -/
theorem Query.dialect_startedIn (d : Dialect) (q : Query) : (q.startedIn d).dialect = d := by
  cases q <;> rfl

/-- What a statement is started in does not show in its fragment. -/
theorem Query.render_startedIn (d d' : Dialect) (q : Query) :
    (q.startedIn d).render d' = q.render d' := by
  cases q with
  | select s =>
      cases s
      rw [startedIn, render, render, Select.compound, Select.compound]
  | insert s =>
      cases s
      rw [startedIn, render, render, Insert.render, Insert.render]
  | update s =>
      cases s
      rw [startedIn, render, render, Update.render, Update.render]
  | delete s =>
      cases s
      rw [startedIn, render, render, Delete.render, Delete.render]

/-- The dialect of a neutral statement shows in its placeholders and nowhere else: the texts around
them and the arguments are given by the fragment. -/
theorem Query.compile_startedIn (d : Dialect) (q : Query) :
    (q.startedIn d).compile =
      ⟨(q.render d).front ++
          String.join ((q.render d).behind.mapIdx fun k s => d.placeholder (k + 1) ++ s),
        (q.render d).args⟩ := by
  rw [compile_eq, dialect_startedIn, render_startedIn, Fragment.placed_eq_woven, Fragment.woven]
  simp only [Nat.zero_add]

/-- The fragment in a dialect does not depend on stored dialects. -/
theorem Query.render_recast_self (δ d : Dialect) (q : Query) : (q.recast δ).render d = q.render d :=
  q.render_recast δ (.inl rfl) fun _ _ => .inl rfl

/-- A statement that is neutral at every depth is one fragment in both dialects. -/
theorem Query.render_of_neutral {q : Query} (h : ∀ s ∈ q.statements, s.IsNeutral)
    (d d' : Dialect) : q.render d' = q.render d := by
  obtain ⟨hself, hnested⟩ := List.forall_mem_cons.mp h
  rw [← q.render_recast_self d d']
  exact q.render_recast d (.inr hself) fun s hs => .inr (hnested s hs)

/-- A statement without the parts that dialects disagree on, at any depth, binds the same values
behind the same texts in both, and only its placeholders differ. Of the dialects that any statement
stores only its own counts: the others can all be replaced by one, and statements that are the same
once they are replaced compile alike. -/
theorem Query.dialect_shows_in_placeholders (q : Query) :
    ((∀ s ∈ q.statements, s.IsNeutral) → ∃ f : Fragment, f.behind.length = f.args.length ∧
      (q.startedIn .mysql).compile =
        ⟨f.front ++ String.join (f.behind.map fun s => "?" ++ s), f.args⟩ ∧
      (q.startedIn .postgres).compile =
        ⟨f.front ++ String.join (f.behind.mapIdx fun k s => "$" ++ toString (k + 1) ++ s),
          f.args⟩) ∧
    ∀ δ : Dialect, (∀ s ∈ (q.recast δ).statements, s.dialect = δ) ∧
      ((q.recast δ).startedIn q.dialect).compile = q.compile ∧
      ∀ q' : Query, q'.dialect = q.dialect → q'.recast δ = q.recast δ → q'.compile = q.compile := by
  constructor
  · intro h
    refine ⟨q.render .mysql, Fragment.length_behind _, ?_, ?_⟩
    · rw [compile_startedIn]
      have hmarks (l : List String) :
          (l.mapIdx fun k s => Dialect.mysql.placeholder (k + 1) ++ s) = l.map ("?" ++ ·) :=
        List.ext_getElem? fun i => by simp [Dialect.placeholder]
      rw [hmarks]
    · rw [compile_startedIn, render_of_neutral h .mysql .postgres]
      rfl
  · intro δ
    refine ⟨fun s hs => dialect_of_mem_statements δ hs, ?_, fun q' hdialect h => ?_⟩
    · rw [compile_eq, compile_eq, dialect_startedIn, render_startedIn, render_recast_self]
    · rw [compile_eq, compile_eq, hdialect, ← q'.render_recast_self δ, h, q.render_recast_self]

/-- The orders of at least 100 that Ann has, copied into an archive. The insertion, its source and
the subquery in that are each started in a dialect of their own. -/
def archivedOrders (insertion source subquery : Dialect) : Query :=
  let users : Select :=
    { dialect := subquery, asName := "", fields := [.plain (.column "" "id") {}],
      source := some (.base ⟨"", "users", ""⟩),
      conditions := [.template false "? = ?"
        [.field (.plain (.column "" "name") {}), .value (.text "ann")] ""] }
  let orders : Select :=
    { dialect := source, asName := "", fields := [.plain (.column "o" "id") {}],
      source := some (.base ⟨"", "orders", "o"⟩),
      conditions := [
        .template false "? >= ?" [.field (.plain (.column "o" "sum") {}), .value (.int 100)] "",
        .template false "? IN ?" [.field (.plain (.column "o" "user") {}),
          .query (.select users)] ""] }
  .insert
    { dialect := insertion, asName := "", target := ⟨"", "archive", "archive"⟩,
      columns := [.plain (.column "" "id") {}], source := some orders }

/-- Both dialects bind the same values behind the same texts, and what the inner selects were
started in does not matter. -/
theorem archivedOrders_portable :
    (∀ s ∈ (archivedOrders .mysql .postgres .mysql).statements, s.IsNeutral) ∧
    (∃ f : Fragment, f.behind.length = f.args.length ∧
      (archivedOrders .mysql .postgres .mysql).compile =
        ⟨f.front ++ String.join (f.behind.map fun s => "?" ++ s), f.args⟩ ∧
      (archivedOrders .postgres .postgres .mysql).compile =
        ⟨f.front ++ String.join (f.behind.mapIdx fun k s => "$" ++ toString (k + 1) ++ s),
          f.args⟩) ∧
    (archivedOrders .mysql .mysql .postgres).compile =
      (archivedOrders .mysql .postgres .mysql).compile := by
  have hneutral : ∀ s ∈ (archivedOrders .mysql .postgres .mysql).statements, s.IsNeutral := by
    refine List.forall_mem_cons.mpr ⟨.inr rfl, ?_⟩
    refine List.forall_mem_cons.mpr ⟨trivial, ?_⟩
    exact List.forall_mem_singleton.mpr trivial
  obtain ⟨hplaceholders, hstored⟩ :=
    Query.dialect_shows_in_placeholders (archivedOrders .mysql .postgres .mysql)
  exact ⟨hneutral, hplaceholders hneutral, (hstored .mysql).2.2 _ rfl rfl⟩

end BoundSql.Sql
