import BoundSql.Proofs.Inlining

/-!
# Inlined statements

Every node of a statement tree is shown as it is, if the texts supplied to it are self-contained.
So the scanner undoes the numbering of a whole compiled statement: it shows the statement with the
literal of each argument at the argument's own place.
-/
namespace BoundSql.Sql

open Text.Digits (wordLimit)

/-- Every text closes its quotes, and has question marks and dollar signs inside them only. -/
abbrev SelfContained (xs : List Supplied) : Prop := ∀ x ∈ xs, x.selfContained

theorem Field.closesQuotes_asName {f : Field} (h : SelfContained f.supplied) :
    closesQuotes (identifier f.asName) := by
  cases f with
  | plain term marks =>
      rw [Field.supplied] at h
      exact h (.name marks.asName) (List.mem_append_right _ (List.mem_singleton.mpr rfl))
  | derived format args marks =>
      rw [Field.supplied] at h
      exact h (.name marks.asName)
        (List.mem_cons_of_mem _ (List.mem_append_right _ (List.mem_singleton.mpr rfl)))
  | verbatim sql => exact (by decide : closesQuotes (identifier ""))
  | condition p =>
      rw [Field.supplied] at h
      cases p with
      | template negated format args asName =>
          rw [Predicate.supplied] at h
          exact h (.name asName) (List.mem_cons_of_mem _ List.mem_cons_self)
      | group negated connective members asName =>
          rw [Predicate.supplied] at h
          exact h (.name asName) List.mem_cons_self
      | flag negated term marks =>
          rw [Predicate.supplied] at h
          exact h (.name marks.asName) (List.mem_append_right _ (List.mem_singleton.mpr rfl))

/-- The name after AS of a subquery stands in quotes that it closes. -/
theorem Query.closesQuotes_asName {q : Query} (h : SelfContained q.supplied) :
    closesQuotes (identifier q.asName) := by
  refine h (.name q.asName) ?_
  cases q with
  | select s =>
      cases s
      rw [Query.supplied, Select.supplied]
      exact List.mem_cons_self
  | insert s =>
      cases s
      rw [Query.supplied, Insert.supplied]
      exact List.mem_cons_self
  | update s =>
      cases s
      rw [Query.supplied, Update.supplied]
      exact List.mem_cons_self
  | delete s =>
      cases s
      rw [Query.supplied, Delete.supplied]
      exact List.mem_cons_self

theorem Field.suppliedAll_eq_flatMap (fs : List Field) :
    Field.suppliedAll fs = fs.flatMap Field.supplied := by
  induction fs with
  | nil => rw [Field.suppliedAll, List.flatMap_nil]
  | cons f fs ih => rw [Field.suppliedAll, ih, List.flatMap_cons]

theorem Field.closesQuotes_asNames {fs : List Field} (h : SelfContained (Field.suppliedAll fs)) :
    ∀ f ∈ fs, closesQuotes (identifier f.asName) := by
  rw [Field.suppliedAll_eq_flatMap] at h
  exact fun f hf => f.closesQuotes_asName fun x hx => h x (List.mem_flatMap.mpr ⟨f, hf, hx⟩)

/-- Every argument is rendered as one fragment, so slots and arguments are counted alike. -/
theorem Arg.renderAll_length (d : Dialect) (excluded : List String) (as : List Arg) :
    (Arg.renderAll d excluded as).length = as.length := by
  induction as with
  | nil => rw [Arg.renderAll]; rfl
  | cons a as ih => rw [Arg.renderAll, List.length_cons, ih, List.length_cons]

section Clauses

variable {f g : Fragment} {fs rendered : List Fragment} {cs : List Condition}

/-- A field with its name after AS is shown if the field is and the name closes its quotes. -/
theorem ShownFrom.selected {gs : List Field} (h : ∀ r ∈ rendered, Shown r)
    (hnames : ∀ g ∈ gs, closesQuotes (identifier g.asName)) :
    ∀ r ∈ Sql.selected gs rendered, Shown r := by
  intro r hr
  obtain ⟨i, hi, rfl⟩ := List.mem_iff_getElem.mp hr
  simp only [Sql.selected, List.length_zipWith] at hi
  simp only [Sql.selected, List.getElem_zipWith]
  exact (h _ (List.getElem_mem _)).append
    (.ite (fun _ => .nil) (fun _ => .asName (hnames _ (List.getElem_mem _))))

theorem ShownFrom.selectList {gs : List Field} (h : ∀ r ∈ rendered, Shown r)
    (hnames : ∀ g ∈ gs, closesQuotes (identifier g.asName)) :
    Shown (Sql.selectList gs rendered) :=
  .ite (fun _ => .text (by decide)) (fun _ => .separated (by decide) (.selected h hnames))

theorem Follows.returning {gs : List Field} (h : ∀ r ∈ rendered, Shown r)
    (hnames : ∀ g ∈ gs, closesQuotes (identifier g.asName)) :
    Follows (returningClause gs rendered) :=
  .listClause (by decide) (.selected h hnames)

/-- The list in front of a select list ends with a space, so anything may come next. -/
theorem ShownFrom.distinct_append {gs : List Field} (distinct : Bool) (h : ∀ f ∈ fs, Shown f)
    (hg : Shown g) :
    Shown ((if !gs.isEmpty then
          Fragment.text "DISTINCT ON (" ++ (Fragment.separated ", " fs ++ Fragment.text ") ")
        else if distinct then Fragment.text "DISTINCT "
        else []) ++ g) := by
  split
  · rw [List.append_assoc, List.append_assoc]
    exact .text_append (by decide) ((ShownFrom.separated (by decide) h).append
      (.text_append (by decide) hg))
  · split
    · exact .text_append (by decide) hg
    · exact hg

theorem ShownFrom.negation_append (negated : Bool) (h : Shown f) :
    Shown (Condition.negation negated ++ f) := by
  cases negated with
  | true => exact .text_append (by decide) h
  | false => exact h

/-- NOT, connectives and parentheses are keywords, so a group is shown if its members are. -/
theorem ShownFrom.group (negated : Bool) (connective : Connective)
    (h : ∀ f ∈ Condition.renderAll cs, Shown f) :
    Shown (Condition.group negated connective cs).render := by
  have hseparator : isKeyword (Condition.separator connective) := by
    cases connective <;> decide
  rw [Condition.render]
  split
  · exact .nil
  · next member hone =>
      exact .negation_append negated (h member (hone ▸ List.mem_singleton.mpr rfl))
  · exact .negation_append negated (ShownFrom.separated hseparator h).parenthesized

/-- A clause starts with its keyword, so it can follow anything. -/
theorem Follows.conditions {keyword : String} (hkeyword : isKeyword (" " ++ keyword ++ " "))
    (h : ∀ f ∈ Condition.renderAll cs, Shown f) : Follows (Condition.clause keyword cs) :=
  .ite (fun _ => .nil) (fun _ => .text_append hkeyword (.separated (by decide) h))

theorem Follows.columns (h : ∀ f ∈ fs, Shown f) :
    Follows (Fragment.text " " ++ (Fragment.separated ", " fs).parenthesized) :=
  .text_append (by decide) (ShownFrom.separated (by decide) h).parenthesized

theorem Follows.conflictTarget {gs : List Field} {constraint : String} (h : ∀ f ∈ fs, Shown f)
    (hconstraint : closesQuotes (identifier constraint)) :
    Follows (if !gs.isEmpty then
        Fragment.text " " ++ (Fragment.separated ", " fs).parenthesized
      else if !constraint.isEmpty then
        Fragment.text " ON CONSTRAINT " ++ Fragment.ident constraint
      else []) :=
  .ite (fun _ => .columns h)
    (fun _ => .ite (fun _ => .text_append (by decide) (.ident hconstraint)) (fun _ => .nil))

/-- A column is shown if its names close their quotes; a literal is a placeholder. -/
theorem Term.shown {t : Term} (h : SelfContained t.supplied) (excluded : List String) :
    Shown (t.render excluded) := by
  cases t with
  | literal v => exact .bound v
  | column qualifier name =>
      exact .owned (h (.name qualifier) (by simp [Term.supplied]))
        (h (.name name) (by simp [Term.supplied]))

variable {t : BaseTable}

theorem BaseTable.shown_asName (h : SelfContained t.supplied) : Shown (Fragment.ident t.asName) :=
  .ident (h (.name t.asName) (by simp [BaseTable.supplied]))

theorem BaseTable.shown (h : SelfContained t.supplied) : Shown t.render :=
  .owned (h (.name t.schema) (by simp [BaseTable.supplied]))
    (h (.name t.name) (by simp [BaseTable.supplied]))

theorem BaseTable.shown_reference (h : SelfContained t.supplied) : Shown t.reference :=
  (t.shown h).append
    (.asNameOf (h (.name t.asName) (by simp [BaseTable.supplied])) t.name)

theorem ShownFrom.target (h : SelfContained t.supplied) : Shown (targetReference t) :=
  .ite (fun _ => .text (by decide)) (fun _ => t.shown_reference h)

theorem ShownFrom.insertTarget (h : SelfContained t.supplied) (d : Dialect) :
    Shown (Sql.insertTarget d t) :=
  .ite (fun _ => .text (by decide))
    (fun _ => .ite (fun _ => t.shown_reference h) (fun _ => t.shown h))

theorem ShownFrom.deleteTargets {ts : List BaseTable}
    (h : SelfContained (ts.flatMap BaseTable.supplied)) (d : Dialect) (hasUsing : Bool) :
    Shown (Sql.deleteTargets d hasUsing ts) := by
  refine .ite (fun _ => .text (by decide)) (fun _ => .separated (by decide) ?_)
  intro f hf
  obtain ⟨t, ht, rfl⟩ := List.mem_map.mp hf
  have ht' : SelfContained t.supplied := fun x hx =>
    h x (List.mem_flatMap.mpr ⟨t, (List.mem_filter.mp ht).1, hx⟩)
  exact .ite (fun _ => .ite (fun _ => t.shown ht') (fun _ => t.shown_asName ht'))
    (fun _ => t.shown_reference ht')

end Clauses

/-- A definition whose name and body can be shown. -/
structure Definition.Shown (c : Definition) : Prop where
  name : closesQuotes (identifier c.name)
  body : Sql.Shown c.body

namespace Definition

/-- Common tables are shown whichever of them are kept. -/
theorem shown_collect {cs ds : List Definition} (h : ∀ c ∈ cs, c.Shown)
    (h' : ∀ c ∈ ds, c.Shown) : ∀ c ∈ Definition.collect cs ds, c.Shown :=
  fun c hc => List.forall_mem_append.mpr ⟨h, h'⟩ c ((addAllNew_sublist cs ds).subset hc)

theorem Shown.render {c : Definition} (h : c.Shown) : Sql.Shown c.render := by
  unfold Definition.render
  rw [List.append_assoc]
  exact (ShownFrom.ident h.name).append (.text_append (by decide) h.body.parenthesized)

theorem shown_clause {cs : List Definition} (h : ∀ c ∈ cs, c.Shown) :
    Sql.Shown (Definition.clause cs) := by
  have hkeyword : closesQuotes (if cs.any (·.recursive) then "WITH RECURSIVE " else "WITH ") := by
    split <;> decide
  unfold Definition.clause
  refine .ite (fun _ => .nil) (fun _ => ?_)
  rw [List.append_assoc]
  refine .text_append hkeyword ((ShownFrom.separated (by decide) ?_).append (.text (by decide)))
  intro f hf
  obtain ⟨c, hc, rfl⟩ := List.mem_map.mp hf
  exact (h c hc).render

end Definition

/-- A table whose reference can be shown, and all that it needs. -/
structure Source.Shown (s : Source) : Prop where
  reference : Sql.Shown s.reference
  definitions : ∀ c ∈ s.definitions, c.Shown

section Sources

variable {rows : Option Source} {joined : List Source} {explicit : List Definition}

theorem Follows.source {keyword : String} (hkeyword : isKeyword keyword)
    (h : ∀ s ∈ rows, s.Shown) : Follows (sourceClause keyword rows) := by
  cases rows with
  | none => exact .nil
  | some s => exact .text_append hkeyword (h s rfl).reference

theorem Follows.joins (h : ∀ s ∈ joined, s.Shown) : Follows (joinsClause joined) := by
  refine .ite (fun _ => .nil) (fun _ => .text_append (by decide) (.separated (by decide) ?_))
  intro f hf
  obtain ⟨s, hs, rfl⟩ := List.mem_map.mp hf
  exact (h s hs).reference

/-- The definitions that the sources of a statement need. -/
theorem Definition.shown_referenced (hrows : ∀ s ∈ rows, s.Shown)
    (hjoined : ∀ s ∈ joined, s.Shown) :
    ∀ c ∈ (rows.map (·.definitions)).getD [] ++ joined.flatMap (·.definitions), c.Shown := by
  intro c hc
  rcases List.mem_append.mp hc with hc | hc
  · cases rows with
    | none => exact absurd hc List.not_mem_nil
    | some s => exact (hrows s rfl).definitions c hc
  · obtain ⟨s, hs, hc⟩ := List.mem_flatMap.mp hc
    exact (hjoined s hs).definitions c hc

theorem ShownFrom.withClause (hexplicit : ∀ c ∈ explicit, c.Shown)
    (hrows : ∀ s ∈ rows, s.Shown) (hjoined : ∀ s ∈ joined, s.Shown) :
    Shown (Sql.withClause explicit rows joined) :=
  Definition.shown_clause
    (Definition.shown_collect hexplicit (Definition.shown_referenced hrows hjoined))

end Sources

/-- A select all of whose parts can be shown. -/
structure Compound.Shown (c : Compound) : Prop where
  explicit : ∀ x ∈ c.explicit, x.Shown
  referenced : ∀ x ∈ c.referenced, x.Shown
  definitions : ∀ x ∈ c.definitions, x.Shown
  body : Follows c.body

theorem Compound.Shown.render {c : Compound} (h : c.Shown) : Sql.Shown c.render :=
  (Definition.shown_clause h.definitions).append h.body

section Members

variable {ms : List (SetOperator × Compound)}

theorem Follows.members (h : ∀ m ∈ ms, m.2.Shown) : Follows (Compound.bodyAll ms) := by
  induction ms with
  | nil =>
      rw [Compound.bodyAll]
      exact .nil
  | cons m ms ih =>
      obtain ⟨operator, c⟩ := m
      have hc := (h (operator, c) List.mem_cons_self).body.shown
      have hms := ih fun m hm => h m (List.mem_cons_of_mem _ hm)
      have hoperator : isKeyword (" " ++ operator.keyword ++ " ") := by
        cases operator <;> decide
      rw [Compound.bodyAll, List.append_assoc]
      refine .text_append hoperator (ShownFrom.append ?_ hms)
      exact .ite (fun _ => hc) (fun _ => hc.parenthesized)

theorem Compound.shown_referencedAll (h : ∀ m ∈ ms, m.2.Shown) :
    ∀ x ∈ Compound.referencedAll ms, x.Shown := by
  rw [Compound.referencedAll_eq_flatMap]
  intro x hx
  obtain ⟨m, hm, hx⟩ := List.mem_flatMap.mp hx
  exact (h m hm).referenced x hx

end Members

mutual

/-- By induction on the tree: what is supplied to a part is supplied to the whole. -/
theorem Arg.shown (d : Dialect) (excluded : List String) :
    ∀ (a : Arg), SelfContained a.supplied → Shown (a.render d excluded)
  | .value v, _ => by
      rw [Arg.render]
      exact .bound v
  | .field f, h => by
      rw [Arg.supplied] at h
      rw [Arg.render]
      exact Field.shown d excluded f h
  | .query q, h => by
      rw [Arg.supplied] at h
      rw [Arg.render]
      exact (Query.shown d q h).parenthesized
  | .list vs, _ => by
      rw [Arg.render]
      exact .valueList vs

theorem Arg.shown_all (d : Dialect) (excluded : List String) :
    ∀ (as : List Arg), SelfContained (Arg.suppliedAll as) →
      ∀ f ∈ Arg.renderAll d excluded as, Shown f
  | [], _ => by
      rw [Arg.renderAll]
      exact List.forall_mem_nil _
  | a :: rest, h => by
      rw [Arg.suppliedAll, SelfContained, List.forall_mem_append] at h
      rw [Arg.renderAll]
      exact List.forall_mem_cons.mpr
        ⟨Arg.shown d excluded a h.1, Arg.shown_all d excluded rest h.2⟩

theorem Arg.shown_rows (d : Dialect) :
    ∀ (rows : List (List Arg)), SelfContained (Arg.suppliedRows rows) →
      ∀ f ∈ Arg.renderRows d rows, Shown f
  | [], _ => by
      rw [Arg.renderRows]
      exact List.forall_mem_nil _
  | row :: rest, h => by
      rw [Arg.suppliedRows, SelfContained, List.forall_mem_append] at h
      rw [Arg.renderRows]
      exact List.forall_mem_cons.mpr
        ⟨(ShownFrom.separated (by decide) (Arg.shown_all d [] row h.1)).parenthesized,
          Arg.shown_rows d rest h.2⟩

theorem Field.shown (d : Dialect) (excluded : List String) :
    ∀ (f : Field), SelfContained f.supplied → Shown (f.render d excluded)
  | .plain term marks, h => by
      rw [Field.supplied, SelfContained, List.forall_mem_append] at h
      rw [Field.render]
      exact (term.shown h.1 excluded).append (.marks marks)
  | .derived format args marks, h => by
      rw [Field.supplied, SelfContained, List.forall_mem_cons, List.forall_mem_append] at h
      have hargs := Arg.shown_all d excluded args h.2.1
      rw [Field.render]
      refine ShownFrom.append (.expanded ?_ hargs) (.marks marks)
      rw [Arg.renderAll_length]
      exact h.1
  | .verbatim sql, h => by
      rw [Field.supplied] at h
      rw [Field.render]
      exact .text (h _ (List.mem_singleton.mpr rfl))
  | .condition p, h => by
      rw [Field.supplied] at h
      rw [Field.render]
      exact Predicate.shown d excluded p h

theorem Field.shown_all (d : Dialect) (excluded : List String) :
    ∀ (fs : List Field), SelfContained (Field.suppliedAll fs) →
      ∀ f ∈ Field.renderAll d excluded fs, Shown f
  | [], _ => by
      rw [Field.renderAll]
      exact List.forall_mem_nil _
  | f :: rest, h => by
      rw [Field.suppliedAll, SelfContained, List.forall_mem_append] at h
      rw [Field.renderAll]
      exact List.forall_mem_cons.mpr
        ⟨Field.shown d excluded f h.1, Field.shown_all d excluded rest h.2⟩

theorem Predicate.shown (d : Dialect) (excluded : List String) :
    ∀ (p : Predicate), SelfContained p.supplied → Shown (p.toCondition d excluded).render
  | .template negated format args asName, h => by
      rw [Predicate.supplied, SelfContained, List.forall_mem_cons, List.forall_mem_cons] at h
      have hargs := Arg.shown_all d excluded args h.2.2
      rw [Predicate.toCondition, Condition.render]
      refine .negation_append negated (.expanded ?_ hargs)
      rw [Arg.renderAll_length]
      exact h.1
  | .group negated connective members asName, h => by
      rw [Predicate.supplied, SelfContained, List.forall_mem_cons] at h
      rw [Predicate.toCondition]
      exact .group negated connective (Predicate.shown_all d excluded members h.2)
  | .flag negated term marks, h => by
      rw [Predicate.supplied, SelfContained, List.forall_mem_append] at h
      rw [Predicate.toCondition, Condition.render]
      exact .negation_append negated ((term.shown h.1 excluded).append (.marks marks))

theorem Predicate.shown_all (d : Dialect) (excluded : List String) :
    ∀ (ps : List Predicate), SelfContained (Predicate.suppliedAll ps) →
      ∀ f ∈ Condition.renderAll (Predicate.toConditions d excluded ps), Shown f
  | [], _ => by
      rw [Predicate.toConditions, Condition.renderAll]
      exact List.forall_mem_nil _
  | p :: rest, h => by
      rw [Predicate.suppliedAll, SelfContained, List.forall_mem_append] at h
      rw [Predicate.toConditions, Condition.renderAll]
      exact List.forall_mem_cons.mpr
        ⟨Predicate.shown d excluded p h.1, Predicate.shown_all d excluded rest h.2⟩

theorem Assignment.shown (d : Dialect) (excluded : List String) :
    ∀ (a : Assignment), SelfContained a.supplied → Shown (a.render d excluded)
  | ⟨target, value⟩, h => by
      rw [Assignment.supplied, SelfContained, List.forall_mem_append] at h
      rw [Assignment.render, List.append_assoc]
      exact (Field.shown d excluded target h.1).append
        (.text_append (by decide) (Arg.shown d [] value h.2))

theorem Assignment.shown_all (d : Dialect) (excluded : List String) :
    ∀ (set : List Assignment), SelfContained (Assignment.suppliedAll set) →
      ∀ f ∈ Assignment.renderAll d excluded set, Shown f
  | [], _ => by
      rw [Assignment.renderAll]
      exact List.forall_mem_nil _
  | a :: rest, h => by
      rw [Assignment.suppliedAll, SelfContained, List.forall_mem_append] at h
      rw [Assignment.renderAll]
      exact List.forall_mem_cons.mpr
        ⟨Assignment.shown d excluded a h.1, Assignment.shown_all d excluded rest h.2⟩

theorem Table.shown (d : Dialect) :
    ∀ (t : Table), SelfContained t.supplied → (t.source d).Shown
  | .base t, h => by
      rw [Table.supplied] at h
      rw [Table.source]
      exact ⟨t.shown_reference h, List.forall_mem_nil _⟩
  | .query q, h => by
      rw [Table.supplied] at h
      rw [Table.source]
      exact ⟨(Query.shown d q h).parenthesized.append (.asNameOf (q.closesQuotes_asName h) ""),
        List.forall_mem_nil _⟩
  | .common ⟨name, asName, recursive, query⟩, h => by
      rw [Table.supplied, CommonTable.supplied, SelfContained, List.forall_mem_cons,
        List.forall_mem_cons] at h
      rw [Table.source, CommonTable.definition]
      exact ⟨(ShownFrom.ident h.1).append (.asNameOf h.2.1 name),
        List.forall_mem_singleton.mpr ⟨h.1, Query.shown d query h.2.2⟩⟩

theorem Table.shown? (d : Dialect) :
    ∀ (t : Option Table), SelfContained (Table.supplied? t) → ∀ s ∈ Table.source? d t, s.Shown
  | none, _ => by
      rw [Table.source?]
      simp
  | some t, h => by
      rw [Table.supplied?] at h
      rw [Table.source?]
      intro s hs
      obtain rfl := Option.some.inj hs
      exact Table.shown d t h

theorem CommonTable.shown_all (d : Dialect) :
    ∀ (cs : List CommonTable), SelfContained (CommonTable.suppliedAll cs) →
      ∀ c ∈ CommonTable.definitions d cs, c.Shown
  | [], _ => by
      rw [CommonTable.definitions]
      exact List.forall_mem_nil _
  | ⟨name, asName, recursive, query⟩ :: rest, h => by
      rw [CommonTable.suppliedAll, CommonTable.supplied, SelfContained, List.forall_mem_append,
        List.forall_mem_cons, List.forall_mem_cons] at h
      rw [CommonTable.definitions, CommonTable.definition]
      exact List.forall_mem_cons.mpr
        ⟨⟨h.1.1, Query.shown d query h.1.2.2⟩, CommonTable.shown_all d rest h.2⟩

theorem Join.shown (d : Dialect) :
    ∀ (j : Join), SelfContained j.supplied → (j.source d).Shown
  | ⟨kind, table, conditions⟩, h => by
      rw [Join.supplied, SelfContained, List.forall_mem_cons, List.forall_mem_append] at h
      have htable := Table.shown d table h.2.1
      have hconditions := Predicate.shown_all d [] conditions h.2.2
      rw [Join.source]
      refine ⟨?_, htable.definitions⟩
      simp only [List.append_assoc]
      refine .text_append h.1 (.text_append (by decide) (htable.reference.append ?_))
      exact .ite (fun _ => .nil) (fun _ => .text_append (by decide) (.group false .and hconditions))

theorem Join.shown_all (d : Dialect) :
    ∀ (js : List Join), SelfContained (Join.suppliedAll js) → ∀ s ∈ Join.sources d js, s.Shown
  | [], _ => by
      rw [Join.sources]
      exact List.forall_mem_nil _
  | j :: rest, h => by
      rw [Join.suppliedAll, SelfContained, List.forall_mem_append] at h
      rw [Join.sources]
      exact List.forall_mem_cons.mpr ⟨Join.shown d j h.1, Join.shown_all d rest h.2⟩

/-- Every clause of a select starts with a keyword or is empty. -/
theorem Select.shown (d : Dialect) :
    ∀ (s : Select), SelfContained s.supplied → (s.compound d).Shown
  | { dialect, asName, ctes, distinct, distinctOn, fields, source, joins, conditions, groupBy,
      having, orderBy, limit, offset, members }, h => by
      rw [Select.supplied, SelfContained] at h
      simp only [List.forall_mem_cons, List.forall_mem_append] at h
      obtain ⟨-, ⟨⟨⟨⟨⟨⟨⟨⟨hctes, hdistinct⟩, hfields⟩, hsource⟩, hjoins⟩, hconditions⟩, hgroup⟩,
        hhaving⟩, horder⟩, hmembers⟩ := h
      have hctes := CommonTable.shown_all d ctes hctes
      have hsource := Table.shown? d source hsource
      have hjoins := Join.shown_all d joins hjoins
      have hmembers := Member.shown_all d members hmembers
      have hreferenced := List.forall_mem_append.mpr
        ⟨Definition.shown_referenced hsource hjoins, Compound.shown_referencedAll hmembers⟩
      have hexplicit : ∀ c ∈ (Member.compounds d members).flatMap fun m => m.2.explicit,
          c.Shown := by
        intro c hc
        obtain ⟨m, hm, hc⟩ := List.mem_flatMap.mp hc
        exact (hmembers m hm).explicit c hc
      have hselect := ShownFrom.selectList (Field.shown_all d [] fields hfields)
        (Field.closesQuotes_asNames hfields)
      have hdistinct := Field.shown_all d [] distinctOn hdistinct
      have hconditions := Predicate.shown_all d [] conditions hconditions
      have hgroup := Field.shown_all d [] groupBy hgroup
      have hhaving := Predicate.shown_all d [] having hhaving
      have horder := Field.shown_all d [] orderBy horder
      rw [Select.compound]
      refine ⟨hctes, ?_, ?_, ?_⟩
      · rw [Compound.referenced]
        exact hreferenced
      · rw [Compound.definitions, Compound.referenced]
        exact Definition.shown_collect hctes
          (List.forall_mem_append.mpr ⟨hreferenced, hexplicit⟩)
      · rw [Compound.body]
        refine .append (.append ?_ (.members hmembers)) (.append (.append
          (.listClause (by decide) horder) (.numberClause (by decide) limit))
            (.numberClause (by decide) offset))
        simp only [@List.append_assoc Piece]
        exact .text_append (by decide) (.distinct_append distinct hdistinct (hselect.append
          (.append (.source (by decide) hsource) (.append (.joins hjoins)
            (.append (.conditions (by decide) hconditions) (.append (.listClause (by decide) hgroup)
              (.conditions (by decide) hhaving)))))))

theorem Member.shown_all (d : Dialect) :
    ∀ (ms : List Member), SelfContained (Member.suppliedAll ms) →
      ∀ m ∈ Member.compounds d ms, m.2.Shown
  | [], _ => by
      rw [Member.compounds]
      exact List.forall_mem_nil _
  | ⟨operator, query⟩ :: rest, h => by
      rw [Member.suppliedAll, SelfContained, List.forall_mem_append] at h
      rw [Member.compounds]
      exact List.forall_mem_cons.mpr ⟨Select.shown d query h.1, Member.shown_all d rest h.2⟩

theorem Select.shown? (d : Dialect) :
    ∀ (s : Option Select), SelfContained (Select.supplied? s) → Shown (Select.render? d s)
  | none, _ => by
      rw [Select.render?]
      exact .nil
  | some s, h => by
      rw [Select.supplied?] at h
      rw [Select.render?]
      exact (Select.shown d s h).render

theorem Conflict.shown? (d : Dialect) (excluded : List String) {resolution : Fragment}
    (hresolution : Follows resolution) :
    ∀ (c : Option Conflict), SelfContained (Conflict.supplied? c) →
      Follows (Conflict.render? d excluded resolution c)
  | none, _ => by
      rw [Conflict.render?]
      exact .nil
  | some ⟨fields, constraint, conditions, none⟩, h => by
      rw [Conflict.supplied?, SelfContained] at h
      simp only [List.forall_mem_cons, List.forall_mem_append] at h
      obtain ⟨hconstraint, ⟨hfields, hconditions⟩, -⟩ := h
      have hfields := Field.shown_all d excluded fields hfields
      have hconditions := Predicate.shown_all d [] conditions hconditions
      rw [Conflict.render?]
      exact .append (.append (.append (.text (by decide)) (.conflictTarget hfields hconstraint))
        (.conditions (by decide) hconditions)) (.text (by decide))
  | some ⟨fields, constraint, conditions, some set⟩, h => by
      rw [Conflict.supplied?, Assignment.supplied?, SelfContained] at h
      simp only [List.forall_mem_cons, List.forall_mem_append] at h
      obtain ⟨hconstraint, ⟨hfields, hconditions⟩, hset⟩ := h
      have hfields := Field.shown_all d excluded fields hfields
      have hconditions := Predicate.shown_all d [] conditions hconditions
      have hset := Assignment.shown_all d excluded set hset
      rw [Conflict.render?]
      refine .append (.append (.append (.text (by decide)) (.conflictTarget hfields hconstraint))
        (.conditions (by decide) hconditions)) ?_
      exact .append (.text_append (by decide) (.separated (by decide) hset)) hresolution

/-- An insertion is shown clause by clause. -/
theorem Insert.shown (d : Dialect) :
    ∀ (s : Insert), SelfContained s.supplied → Shown (s.render d)
  | { dialect, asName, ctes, ignore, target, columns, rows, source, conflict, resolution,
      onDuplicate, returning }, h => by
      rw [Insert.supplied, SelfContained] at h
      simp only [List.forall_mem_cons, List.forall_mem_append] at h
      obtain ⟨-, ⟨⟨⟨⟨⟨⟨⟨hctes, htarget⟩, hcolumns⟩, hrows⟩, hsource⟩, hconflict⟩, hresolution⟩,
        honDuplicate⟩, hreturning⟩ := h
      have hclause := Definition.shown_clause (CommonTable.shown_all d ctes hctes)
      have hkeyword : isKeyword (if ignore then "INSERT IGNORE INTO " else "INSERT INTO ") := by
        cases ignore <;> decide
      have hcolumns := Field.shown_all d [target.qualifier] columns hcolumns
      have hrows := Arg.shown_rows d rows hrows
      have hsource := Select.shown? d source hsource
      have hresolution := Predicate.shown_all d [] resolution hresolution
      have hconflict := Conflict.shown? d [target.qualifier]
        (.conditions (by decide : isKeyword (" " ++ "WHERE" ++ " ")) hresolution) conflict hconflict
      have honDuplicate := Assignment.shown_all d [target.qualifier] onDuplicate honDuplicate
      have hreturned := Follows.returning (Field.shown_all d [] returning hreturning)
        (Field.closesQuotes_asNames hreturning)
      rw [Insert.render]
      simp only [List.append_assoc]
      refine hclause.append (.text_append hkeyword ((ShownFrom.insertTarget htarget d).append
        (.append ?_ (.append ?_ (hconflict.append (.append ?_ hreturned))))))
      · exact .ite (fun _ => .nil) (fun _ => .columns hcolumns)
      · exact .ite (fun _ => .text_append (by decide) (.separated (by decide) hrows))
          (fun _ => .ite (fun _ => .text_append (by decide) hsource) (fun _ => .nil))
      · exact .listClause (by decide) honDuplicate

/-- An update is shown clause by clause, wherever its joins stand. -/
theorem Update.shown (d : Dialect) :
    ∀ (s : Update), SelfContained s.supplied → Shown (s.render d)
  | { dialect, asName, ctes, target, assignments, source, joins, conditions, orderBy, limit,
      returning }, h => by
      rw [Update.supplied, SelfContained] at h
      simp only [List.forall_mem_cons, List.forall_mem_append] at h
      obtain ⟨-, ⟨⟨⟨⟨⟨⟨hctes, htarget⟩, hassignments⟩, hsource⟩, hjoins⟩, hconditions⟩, horder⟩,
        hreturning⟩ := h
      have hctes := CommonTable.shown_all d ctes hctes
      have hsource := Table.shown? d source hsource
      have hjoins := Join.shown_all d joins hjoins
      have hassignments (excluded : List String) :=
        Assignment.shown_all d excluded assignments hassignments
      have hconditions := Predicate.shown_all d [] conditions hconditions
      have horder := Field.shown_all d [] orderBy horder
      have hreturned := Follows.returning (Field.shown_all d [] returning hreturning)
        (Field.closesQuotes_asNames hreturning)
      rw [Update.render]
      simp only [@List.append_assoc Piece]
      refine (ShownFrom.withClause hctes hsource hjoins).append (.text_append (by decide)
        ((ShownFrom.target htarget).append (.append ?_ (.append (.listClause (by decide)
          (hassignments _)) (.append ?_ (.append (.conditions (by decide) hconditions)
            (.append (.listClause (by decide) horder)
              (.append (.numberClause (by decide) limit) hreturned))))))))
      · exact .ite (fun _ => .joins hjoins) (fun _ => .nil)
      · exact .ite (fun _ => (Follows.source (by decide) hsource).append (.joins hjoins))
          (fun _ => .nil)

/-- A deletion is shown clause by clause. -/
theorem Delete.shown (d : Dialect) :
    ∀ (s : Delete), SelfContained s.supplied → Shown (s.render d)
  | { dialect, asName, ctes, targets, source, joins, conditions, orderBy, limit,
      returning }, h => by
      rw [Delete.supplied, SelfContained] at h
      simp only [List.forall_mem_cons, List.forall_mem_append] at h
      obtain ⟨-, ⟨⟨⟨⟨⟨hctes, htargets⟩, hsource⟩, hjoins⟩, hconditions⟩, horder⟩, hreturning⟩ := h
      have hctes := CommonTable.shown_all d ctes hctes
      have hsource := Table.shown? d source hsource
      have hjoins := Join.shown_all d joins hjoins
      have hconditions := Predicate.shown_all d [] conditions hconditions
      have horder := Field.shown_all d [] orderBy horder
      have hreturned := Follows.returning (Field.shown_all d [] returning hreturning)
        (Field.closesQuotes_asNames hreturning)
      rw [Delete.render]
      simp only [@List.append_assoc Piece]
      exact (ShownFrom.withClause hctes hsource hjoins).append (.text_append (by decide)
        ((ShownFrom.deleteTargets htargets d _).append (.append (.source (by decide) hsource)
          (.append (.joins hjoins) (.append (.conditions (by decide) hconditions)
            (.append (.listClause (by decide) horder)
              (.append (.numberClause (by decide) limit) hreturned)))))))

/-- A statement all of whose supplied texts are self-contained is shown in any dialect. -/
theorem Query.shown (d : Dialect) :
    ∀ (q : Query), SelfContained q.supplied → Shown (q.render d)
  | .select s, h => by
      rw [Query.supplied] at h
      rw [Query.render]
      exact (Select.shown d s h).render
  | .insert s, h => by
      rw [Query.supplied] at h
      rw [Query.render]
      exact Insert.shown d s h
  | .update s, h => by
      rw [Query.supplied] at h
      rw [Query.render]
      exact Update.shown d s h
  | .delete s, h => by
      rw [Query.supplied] at h
      rw [Query.render]
      exact Delete.shown d s h

end

/-- Each literal is followed by the verbatim text behind its own value. -/
theorem Fragment.inlined_eq (f : Fragment) :
    f.inlined =
      f.front ++ String.join (List.zipWith (fun v s => v.literal ++ s) f.args f.behind) := by
  induction f with
  | nil => rfl
  | cons p f ih =>
      cases p with
      | text s => simp only [inlined, front, args, behind, ih, String.append_assoc]
      | bound v =>
          simp only [inlined, front, args, behind, ih, List.zipWith_cons_cons, String.join_cons,
            String.empty_append, String.append_assoc]

theorem Fragment.inlineArgs_placed {f : Fragment} (hf : Shown f) (d : Dialect)
    (hargs : f.args.length < wordLimit) : Log.inlineArgs d (f.placed d 0) f.args = f.inlined := by
  have h := hf d f.args 0 [] hargs List.prefix_rfl (fun c hc => absurd hc (by simp))
  have hstart : questionMarks d 0 = 0 := by cases d <;> rfl
  rw [List.append_nil, hstart] at h
  rw [Log.inlineArgs, h, Log.inlineFrom, List.append_nil, String.ofList_toList]

/-- Inlining the arguments of a compiled statement gives the statement rendered with each value's
literal in the value's own place, whatever the values are. The arguments are as many as a machine
word can count. -/
theorem inlining_undoes_placeholders (q : Query) (hsupplied : ∀ x ∈ q.supplied, x.Plain)
    (hargs : q.compile.args.length < wordLimit) :
    Log.inlineArgs q.dialect q.compile.sql q.compile.args = (q.render q.dialect).inlined ∧
      ∃ f : Fragment, f = q.render q.dialect ∧
        q.compile.args = f.args ∧ f.behind.length = f.args.length ∧
        q.compile.sql =
          f.front ++ String.join (f.behind.mapIdx fun i s => q.dialect.placeholder (i + 1) ++ s) ∧
        Log.inlineArgs q.dialect q.compile.sql q.compile.args =
          f.front ++ String.join (List.zipWith (fun v s => v.literal ++ s) f.args f.behind) := by
  have hshown := Query.shown q.dialect q fun x hx => (hsupplied x hx).selfContained
  have hinlined : Log.inlineArgs q.dialect q.compile.sql q.compile.args =
      (q.render q.dialect).inlined := by
    rw [q.compile_eq] at hargs ⊢
    exact Fragment.inlineArgs_placed hshown q.dialect hargs
  refine ⟨hinlined, _, rfl, ?_, Fragment.length_behind _, ?_, ?_⟩
  · rw [q.compile_eq]
  · rw [q.compile_eq, Fragment.placed_eq_woven]
    simp only [Fragment.woven, Nat.zero_add]
  · rw [hinlined, Fragment.inlined_eq]

/-- A select with names and values that a scanner could mistake for something else. -/
def quotedNames : Query :=
  .select
    { dialect := .postgres, asName := "", source := some (.base ⟨"", "all users", "u"⟩),
      fields := [.plain (.column "u" "full name") {}],
      conditions := [.template false "? IN ?" [.field (.plain (.column "u" "full name") {}),
        .list (["it's", "$1", "?", "`", "\"", "f", "g", "h", "i", "$$", "?1"].map .text)] ""] }

theorem quotedNames_inlined :
    (∀ x ∈ quotedNames.supplied, x.Plain) ∧ quotedNames.compile.args.length < wordLimit ∧
      quotedNames.compile.sql = "SELECT u.\"full name\" FROM \"all users\" AS u " ++
        "WHERE u.\"full name\" IN ($1, $2, $3, $4, $5, $6, $7, $8, $9, $10, $11)" ∧
      Log.inlineArgs .postgres quotedNames.compile.sql quotedNames.compile.args =
        "SELECT u.\"full name\" FROM \"all users\" AS u WHERE u.\"full name\" IN " ++
          "('it''s', '$1', '?', '`', '\"', 'f', 'g', 'h', 'i', '$$', '?1')" := by
  have hsupplied : ∀ x ∈ quotedNames.supplied, x.Plain := by
    have hlist : quotedNames.supplied = [.name "", .name "u", .name "full name", .name "",
        .name "", .name "all users", .name "u", .template "? IN ?" 2, .name "", .name "u",
        .name "full name", .name ""] := rfl
    rw [hlist]
    simp only [List.forall_mem_cons]
    refine ⟨.name ?_, .name ?_, .name ?_, .name ?_, .name ?_, .name ?_, .name ?_,
      .template ?_ ?_ ?_, .name ?_, .name ?_, .name ?_, .name ?_, List.forall_mem_nil _⟩
    case refine_8 =>
      intro c hc
      have hmem : c ∈ " IN ".toList := by simpa [Template.parts] using hc
      exact List.all_eq_true.mp (by decide) c hmem
    case refine_9 => decide
    case refine_10 => decide
    all_goals exact List.all_eq_true.mp (by decide)
  have hargs : quotedNames.compile.args.length < wordLimit := by
    rw [Query.compile_eq]
    decide
  have h := (inlining_undoes_placeholders quotedNames hsupplied hargs).1
  refine ⟨hsupplied, hargs, ?_, h.trans ?_⟩
  · rw [Query.compile_eq]
    decide +kernel
  · decide +kernel

end BoundSql.Sql
