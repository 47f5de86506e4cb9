import BoundSql.Sql.Emission
import Mathlib.Data.List.Forall2
import Mathlib.Tactic.Common

/-!
# Emission writes the fragment

`Emits d e f` says that, into a writer of dialect `d`, the emission `e` writes exactly the fragment
`f`, whatever the writer holds. It composes along sequencing, so that each node of a statement tree
is checked once against its fragment and no placeholder is counted by hand.
-/
namespace BoundSql.Sql

open Fragment (args placed)

namespace Writer

@[simp] theorem write_dialect (w : Writer) (f : Fragment) : (w.write f).dialect = w.dialect := by
  rw [write_eq]

/-- A writer does not tell two fragments written in turn from the two as one. -/
@[simp] theorem write_write (w : Writer) (f g : Fragment) :
    (w.write f).write g = w.write (f ++ g) := by
  simp [write, List.foldl_append]

end Writer

theorem forall₂_isEmpty_eq {α β : Type} {S : α → β → Prop} {xs : List α} {ys : List β}
    (h : List.Forall₂ S xs ys) : xs.isEmpty = ys.isEmpty := by
  cases h <;> rfl

/-- Two lists related element by element agree on every test that related elements agree on. -/
theorem forall₂_any_eq {α β : Type} {S : α → β → Prop} {p : α → Bool} {q : β → Bool}
    (hpq : ∀ x y, S x y → p x = q y) {xs : List α} {ys : List β} (h : List.Forall₂ S xs ys) :
    xs.any p = ys.any q := by
  induction h with
  | nil => rfl
  | cons h _ ih => rw [List.any_cons, List.any_cons, hpq _ _ h, ih]

/-- Into a writer of dialect `d` the emission writes the fragment. -/
def Emits (d : Dialect) (e : Emission) (f : Fragment) : Prop :=
  ∀ w : Writer, w.dialect = d → (e.run w).2 = w.write f

namespace Emits

variable {d : Dialect} {e e' : Emission} {f f' : Fragment}

/-- What writes nothing emits the empty fragment. -/
theorem nothing : Emits d (pure ()) [] := fun _ _ => rfl

theorem text (s : String) : Emits d (Emission.text s) (Fragment.text s) := fun _ _ => rfl

theorem char (c : Char) : Emits d (Emission.char c) [.text (String.singleton c)] :=
  fun _ _ => rfl

theorem ident (name : String) : Emits d (Emission.ident name) (Fragment.ident name) :=
  fun _ _ => rfl

theorem bound (v : Value) : Emits d (Emission.bound v) (Fragment.bound v) := fun _ _ => rfl

/-- One emission behind another emits one fragment behind the other. -/
theorem seq (h : Emits d e f) (h' : Emits d e' f') :
    Emits d (e >>= fun _ => e') (f ++ f') := by
  intro w hw
  have hw' : ((e.run w).2).dialect = d := by rw [h w hw, Writer.write_dialect, hw]
  calc ((e >>= fun _ => e').run w).2 = (e'.run (e.run w).2).2 := rfl
    _ = (w.write f).write f' := by rw [h' _ hw', h w hw]
    _ = w.write (f ++ f') := Writer.write_write w f f'

/-- An emission that asks the writer for its dialect is told the one it emits for. -/
theorem forDialect {k : Dialect → Emission} (h : Emits d (k d) f) :
    Emits d (Emission.forDialect k) f := by
  intro w hw
  subst hw
  exact h w rfl

theorem ite {p : Prop} [Decidable p] (h : p → Emits d e f) (h' : ¬p → Emits d e' f') :
    Emits d (if p then e else e') (if p then f else f') := by
  split
  · exact h ‹_›
  · exact h' ‹_›

theorem skipIf (hidden : Bool) (h : Emits d e f) :
    Emits d (Emission.skipIf hidden e) (if hidden then [] else f) :=
  ite (fun _ => nothing) (fun _ => h)

theorem parenthesized (h : Emits d e f) :
    Emits d (Emission.parenthesized e) f.parenthesized := by
  unfold Fragment.parenthesized
  rw [List.append_assoc]
  exact (text "(").seq (h.seq (text ")"))

variable {es : List Emission} {fs : List Fragment}

/-- The separator stands between the parts and nowhere else, on both sides. -/
theorem separated (separator : String) (h : List.Forall₂ (Emits d) es fs) :
    Emits d (Emission.separated separator es) (Fragment.separated separator fs) := by
  induction h with
  | nil => exact nothing
  | cons h hs ih =>
      cases hs with
      | nil => exact h
      | cons h' hs =>
          rw [Emission.separated, Fragment.separated, List.append_assoc]
          · exact h.seq ((text separator).seq ih)
          · simp
          · simp

theorem asName (name : String) : Emits d (Emission.asName name) (Fragment.asName name) :=
  (text " AS ").seq (ident name)

theorem asNameOf (name own : String) :
    Emits d (Emission.asNameOf name own) (Sql.asNameOf name own) :=
  skipIf _ (asName name)

theorem owner (name : String) :
    Emits d (Emission.owner name) (Fragment.ident name ++ Fragment.text ".") :=
  (ident name).seq (text ".")

/-- A list without parts is left out together with its keyword. -/
theorem list (keyword : String) (h : List.Forall₂ (Emits d) es fs) :
    Emits d (Emission.list keyword es) (listClause keyword fs) := by
  unfold Emission.list listClause
  rw [forall₂_isEmpty_eq h]
  exact skipIf _ ((text keyword).seq (separated ", " h))

theorem number (keyword : String) (n : Option Int64) :
    Emits d (Emission.number keyword n) (numberClause keyword n) := by
  cases n with
  | none => exact nothing
  | some n => exact (text keyword).seq (bound (.int n))

theorem valueList (vs : List Value) : Emits d (Emission.valueList vs) (Sql.valueList vs) := by
  refine ite (fun _ => text "(NULL)") (fun _ => (separated ", " ?_).parenthesized)
  rw [List.forall₂_map_left_iff, List.forall₂_map_right_iff]
  exact List.forall₂_same.mpr fun v _ => bound v

/-- Names after AS are read off the same fields on both sides. -/
theorem selected (gs : List Field) (h : List.Forall₂ (Emits d) es fs) :
    List.Forall₂ (Emits d) (Emission.selected gs es) (Sql.selected gs fs) := by
  unfold Emission.selected Sql.selected
  induction h generalizing gs with
  | nil => cases gs <;> exact .nil
  | cons h _ ih =>
      cases gs with
      | nil => exact .nil
      | cons g gs => exact .cons (h.seq (skipIf _ (asName g.asName))) (ih gs)

theorem selectList (gs : List Field) (h : List.Forall₂ (Emits d) es fs) :
    Emits d (Emission.selectList gs es) (Sql.selectList gs fs) :=
  ite (fun _ => text "NULL") (fun _ => separated ", " (selected gs h))

theorem returning (gs : List Field) (h : List.Forall₂ (Emits d) es fs) :
    Emits d (Emission.returning gs es) (returningClause gs fs) :=
  list " RETURNING " (selected gs h)

/-- One character after the other, or all slots first: a template is filled the same way. -/
theorem template (cs : List Char) (h : List.Forall₂ (Emits d) es fs) :
    Emits d (Emission.template cs es) (Template.filled (Template.parts cs) fs) := by
  induction cs, es using Emission.template.induct generalizing fs with
  | case1 rest es ih => exact (char '?').seq (ih h)
  | case2 rest hne ih =>
      cases h
      rw [Emission.template, Template.parts]
      · exact (char '?').seq (ih .nil)
      · exact hne
      · exact hne
  | case3 rest e es hne ih =>
      obtain _ | ⟨h, hs⟩ := h
      rw [Emission.template, Template.parts]
      · exact h.seq (ih hs)
      · exact hne
      · exact hne
  | case4 c rest es _ hnil hcons ih =>
      have hc : c ≠ '?' := by
        cases es with
        | nil => exact hnil rfl
        | cons e es => exact hcons e es rfl
      rw [Emission.template, Template.parts]
      · exact (char c).seq (ih h)
      all_goals simp [hc]
  | case5 es => exact nothing

theorem distinct (distinct : Bool) (h : List.Forall₂ (Emits d) es fs) :
    Emits d (Emission.distinct distinct es)
      (if !fs.isEmpty then
          Fragment.text "DISTINCT ON (" ++ Fragment.separated ", " fs ++ Fragment.text ") "
        else if distinct then Fragment.text "DISTINCT "
        else []) := by
  unfold Emission.distinct
  rw [forall₂_isEmpty_eq h, List.append_assoc]
  exact ite (fun _ => (text "DISTINCT ON (").seq ((separated ", " h).seq (text ") ")))
    (fun _ => ite (fun _ => text "DISTINCT ") (fun _ => nothing))

theorem columns (h : List.Forall₂ (Emits d) es fs) :
    Emits d (Emission.columns es)
      (if fs.isEmpty then []
        else Fragment.text " " ++ (Fragment.separated ", " fs).parenthesized) := by
  unfold Emission.columns
  rw [forall₂_isEmpty_eq h]
  exact skipIf _ ((text " ").seq (separated ", " h).parenthesized)

/-- Fields win over the name of a constraint, on both sides. -/
theorem conflictTarget (constraint : String) (h : List.Forall₂ (Emits d) es fs) :
    Emits d (Emission.conflictTarget es constraint)
      (if !fs.isEmpty then Fragment.text " " ++ (Fragment.separated ", " fs).parenthesized
        else if !constraint.isEmpty then
          Fragment.text " ON CONSTRAINT " ++ Fragment.ident constraint
        else []) := by
  unfold Emission.conflictTarget
  rw [forall₂_isEmpty_eq h]
  refine ite (fun hfs => ?_) (fun _ => ?_)
  · have := columns h
    rwa [if_neg (by simpa using hfs)] at this
  · have := skipIf constraint.isEmpty
      ((text (d := d) " ON CONSTRAINT ").seq (ident constraint))
    cases hc : constraint.isEmpty <;> simpa [hc] using this

theorem negation (negated : Bool) :
    Emits d (Emission.negation negated) (Condition.negation negated) :=
  ite (fun _ => text "NOT ") (fun _ => nothing)

variable {cs : List Condition}

/-- A group with one member has no parentheses of its own, and one without members is empty. -/
theorem group (negated : Bool) (connective : Connective)
    (h : List.Forall₂ (Emits d) es (Condition.renderAll cs)) :
    Emits d (Emission.group negated connective es)
      (Condition.group negated connective cs).render := by
  rw [Condition.render]
  generalize Condition.renderAll cs = fs at h
  match h with
  | .nil => exact nothing
  | .cons h .nil => exact (negation negated).seq h
  | .cons h (.cons h' hs) =>
      exact (negation negated).seq
        (separated (Condition.separator connective) (.cons h (.cons h' hs))).parenthesized

theorem conditions (keyword : String)
    (h : List.Forall₂ (Emits d) es (Condition.renderAll cs)) :
    Emits d (Emission.conditions keyword es) (Condition.clause keyword cs) := by
  have hes : es.isEmpty = cs.isEmpty := by
    rw [forall₂_isEmpty_eq h]
    cases cs <;> rfl
  unfold Emission.conditions Condition.clause
  rw [hes]
  exact skipIf _ ((text (" " ++ keyword ++ " ")).seq (separated " AND " h))

theorem term (excluded : List String) (t : Term) :
    Emits d (t.emit excluded) (t.render excluded) := by
  cases t with
  | literal v => exact bound v
  | column qualifier name => exact (skipIf _ (owner qualifier)).seq (ident name)

theorem marks (m : Marks) : Emits d m.emit m.order := by
  obtain ⟨_, direction, nulls⟩ := m
  unfold Marks.emit Marks.order
  refine seq ?_ ?_
  · rcases direction with _ | (_ | _)
    exacts [nothing, text " ASC", text " DESC"]
  · rcases nulls with _ | (_ | _)
    exacts [nothing, text " NULLS FIRST", text " NULLS LAST"]

theorem baseTable (t : BaseTable) : Emits d t.emit t.render :=
  (skipIf _ (owner t.schema)).seq (ident t.name)

theorem reference (t : BaseTable) : Emits d t.emitReference t.reference :=
  (baseTable t).seq (asNameOf t.asName t.name)

theorem target (t : BaseTable) : Emits d t.emitTarget (targetReference t) :=
  ite (fun _ => text "NULL") (fun _ => reference t)

theorem insertTarget (t : BaseTable) : Emits d t.emitInsertTarget (Sql.insertTarget d t) :=
  forDialect (ite (fun _ => text "NULL")
    (fun _ => ite (fun _ => reference t) (fun _ => baseTable t)))

/-- Targets without name are passed over before the list is looked at. -/
theorem deleteTargets (hasUsing : Bool) (ts : List BaseTable) :
    Emits d (BaseTable.emitDeleteTargets hasUsing ts) (Sql.deleteTargets d hasUsing ts) := by
  refine forDialect (ite (fun _ => text "NULL") (fun _ => separated ", " ?_))
  rw [List.forall₂_map_left_iff, List.forall₂_map_right_iff]
  refine List.forall₂_same.mpr fun t _ => ite (fun _ => ite ?_ ?_) (fun _ => reference t)
  · exact fun _ => baseTable t
  · exact fun _ => ident t.asName

theorem joins {ss : List Source} (h : List.Forall₂ (Emits d) es (ss.map (·.reference))) :
    Emits d (Emission.joins es) (joinsClause ss) := by
  have hes : es.isEmpty = ss.isEmpty := by
    rw [forall₂_isEmpty_eq h]
    cases ss <;> rfl
  unfold Emission.joins joinsClause
  rw [hes]
  exact skipIf _ ((text " ").seq (separated " " h))

end Emits

/-- Which of the new elements are kept is decided by their names, so related lists keep related
elements. -/
theorem forall₂_addAllNew {α β : Type} {R : α → β → Prop} {name : α → String}
    {name' : β → String} (hname : ∀ x y, R x y → name x = name' y) {xs ys : List α}
    {xs' ys' : List β} (hxs : List.Forall₂ R xs xs') (hys : List.Forall₂ R ys ys') :
    List.Forall₂ R (addAllNew name xs ys) (addAllNew name' xs' ys') := by
  induction hys generalizing xs xs' with
  | nil => exact hxs
  | @cons y y' ys ys' hy _ ih =>
      have hany : (xs.any fun z => name z = name y) = xs'.any fun z => name' z = name' y' :=
        forall₂_any_eq (fun _ _ h => by rw [hname _ _ h, hname y y' hy]) hxs
      refine ih ?_
      unfold addNew
      rw [hany]
      split
      · exact hxs
      · exact List.rel_append hxs (.cons hy .nil)

/-- An entry writes the definition. -/
structure Entry.Defines (d : Dialect) (e : Entry) (c : Definition) : Prop where
  name : e.name = c.name
  recursive : e.recursive = c.recursive
  body : Emits d e.body c.body

namespace Entry.Defines

variable {d : Dialect} {es : List Entry} {cs : List Definition}

/-- Registered entries and the ones behind them define what the definitions collected alike define.
-/
theorem collect {es' : List Entry} {cs' : List Definition}
    (h : List.Forall₂ (Entry.Defines d) es cs) (h' : List.Forall₂ (Entry.Defines d) es' cs') :
    List.Forall₂ (Entry.Defines d) (Entry.collect es es') (Definition.collect cs cs') :=
  forall₂_addAllNew (fun _ _ h => h.name) h h'

theorem emit {e : Entry} {c : Definition} (h : Entry.Defines d e c) : Emits d e.emit c.render := by
  unfold Entry.emit Definition.render
  rw [h.name, List.append_assoc]
  exact (Emits.ident c.name).seq ((Emits.text " AS ").seq h.body.parenthesized)

theorem any_recursive (h : List.Forall₂ (Entry.Defines d) es cs) :
    es.any (·.recursive) = cs.any (·.recursive) :=
  forall₂_any_eq (fun _ _ h => h.recursive) h

/-- RECURSIVE is written for the entries exactly when it is for the definitions. -/
theorem clause (h : List.Forall₂ (Entry.Defines d) es cs) :
    Emits d (Entry.clause es) (Definition.clause cs) := by
  have hemit : List.Forall₂ (Emits d) (es.map Entry.emit) (cs.map Definition.render) :=
    List.rel_map (fun _ _ h => h.emit) h
  unfold Entry.clause Definition.clause
  rw [forall₂_isEmpty_eq h, any_recursive h, List.append_assoc]
  exact Emits.skipIf _ ((Emits.text _).seq ((Emits.separated ", " hemit).seq (Emits.text " ")))

end Entry.Defines

namespace Compound

/-- A compound without its WITH clause: its own select, its members and what comes last. -/
theorem body_eq (c : Compound) : c.body = c.core ++ bodyAll c.members ++ c.tail := by
  cases c
  rw [body]
  rfl

theorem referencedAll_eq_flatMap (cs : List (SetOperator × Compound)) :
    referencedAll cs = cs.flatMap fun c => c.2.referenced := by
  induction cs with
  | nil => rw [referencedAll, List.flatMap_nil]
  | cons c cs ih => rw [referencedAll, ih, List.flatMap_cons]

/-- Without a tail and members there is only the core. -/
theorem body_eq_of_isPlain {c : Compound} (h : c.isPlain) :
    c.body = c.core ++ bodyAll c.members := by
  have htail : c.tail = [] := by
    cases c
    simp only [isPlain, Bool.and_eq_true, List.isEmpty_iff] at h
    exact h.1
  rw [body_eq, htail, List.append_nil]

end Compound

/-- A select is written as the compound is rendered, alone and as a member. -/
structure SelectEmission.Writes (d : Dialect) (s : SelectEmission) (c : Compound) : Prop where
  explicit : List.Forall₂ (Entry.Defines d) s.explicit c.explicit
  referenced : List.Forall₂ (Entry.Defines d) s.referenced c.referenced
  entries : List.Forall₂ (Entry.Defines d) s.entries c.definitions
  core : Emits d s.core (c.core ++ Compound.bodyAll c.members)
  tail : Emits d s.tail c.tail
  isPlain : s.isPlain = c.isPlain

namespace SelectEmission.Writes

variable {d : Dialect} {s : SelectEmission} {c : Compound}

theorem body (h : s.Writes d c) : Emits d s.body c.body := by
  rw [c.body_eq]
  exact h.core.seq h.tail

theorem emit (h : s.Writes d c) : Emits d s.emit c.render :=
  (Entry.Defines.clause h.entries).seq h.body

/-- Members, each behind the operator that adds it. -/
abbrev All (d : Dialect) :=
  List.Forall₂ fun (m : SetOperator × SelectEmission) (c : SetOperator × Compound) =>
    m.1 = c.1 ∧ m.2.Writes d c.2

variable {ms : List (SetOperator × SelectEmission)} {cs : List (SetOperator × Compound)}

/-- Members are written one behind the other, each in parentheses unless it is plain. -/
theorem members (h : All d ms cs) :
    Emits d (ms.forM fun (operator, m) => m.emitMember operator) (Compound.bodyAll cs) := by
  induction h with
  | nil => exact Emits.nothing
  | @cons m c ms cs h hs ih =>
      obtain ⟨operator, m⟩ := m
      obtain ⟨_, c⟩ := c
      obtain ⟨rfl, h⟩ := h
      rw [Compound.bodyAll]
      refine Emits.seq ((Emits.text _).seq ?_) ih
      rw [← h.isPlain]
      refine Emits.ite (fun hplain => ?_) (fun _ => h.body.parenthesized)
      rw [Compound.body_eq_of_isPlain (h.isPlain ▸ hplain)]
      exact h.core

theorem flatMap {f : SelectEmission → List Entry} {g : Compound → List Definition}
    (hfg : ∀ {s c}, s.Writes d c → List.Forall₂ (Entry.Defines d) (f s) (g c)) (h : All d ms cs) :
    List.Forall₂ (Entry.Defines d) (ms.flatMap fun m => f m.2) (cs.flatMap fun c => g c.2) := by
  induction h with
  | nil => exact .nil
  | cons h _ ih => exact List.rel_append (hfg h.2) ih

end SelectEmission.Writes

theorem Field.renderAll_isEmpty (d : Dialect) (excluded : List String) (fs : List Field) :
    (Field.renderAll d excluded fs).isEmpty = fs.isEmpty := by
  cases fs <;> rw [Field.renderAll] <;> rfl

theorem Arg.renderRows_isEmpty (d : Dialect) (rows : List (List Arg)) :
    (Arg.renderRows d rows).isEmpty = rows.isEmpty := by
  cases rows <;> rw [Arg.renderRows] <;> rfl

/-- The number of joins is not changed by rendering them, which decides where a clause is left out.
-/
theorem Join.sources_isEmpty (d : Dialect) (js : List Join) :
    (Join.sources d js).isEmpty = js.isEmpty := by
  cases js <;> rw [Join.sources] <;> rfl

theorem Table.source?_isSome (d : Dialect) (t : Option Table) :
    (Table.source? d t).isSome = t.isSome := by
  cases t <;> rw [Table.source?] <;> rfl

theorem Member.emissions_isEmpty (ms : List Member) :
    (Member.emissions ms).isEmpty = ms.isEmpty := by
  obtain _ | ⟨⟨_, _⟩, _⟩ := ms <;> rw [Member.emissions] <;> rfl

theorem Member.compounds_isEmpty (d : Dialect) (ms : List Member) :
    (Member.compounds d ms).isEmpty = ms.isEmpty := by
  obtain _ | ⟨⟨_, _⟩, _⟩ := ms <;> rw [Member.compounds] <;> rfl

/-- Rendering a select renders its members one by one. -/
theorem Select.members_compound (d : Dialect) (s : Select) :
    (s.compound d).members = Member.compounds d s.members := by
  cases s
  rw [compound]
  rfl

/-- Nothing is written by two fragments exactly if nothing is written by either. -/
theorem append_isEmpty (f g : Fragment) :
    List.isEmpty (f ++ g) = (List.isEmpty f && List.isEmpty g) := by
  cases f <;> rfl

theorem listClause_isEmpty (keyword : String) (fs : List Fragment) :
    (listClause keyword fs).isEmpty = fs.isEmpty := by
  cases fs <;> rfl

theorem numberClause_isEmpty (keyword : String) (n : Option Int64) :
    (numberClause keyword n).isEmpty = n.isNone := by
  cases n <;> rfl

mutual

/-- What fills a slot is emitted as it is rendered. -/
theorem Arg.emits (d : Dialect) (excluded : List String) :
    ∀ a : Arg, Emits d (a.emit excluded) (a.render d excluded)
  | .value v => by
      rw [Arg.emit, Arg.render]
      exact Emits.bound v
  | .field f => by
      rw [Arg.emit, Arg.render]
      exact Field.emits d excluded f
  | .query q => by
      rw [Arg.emit, Arg.render]
      exact (Query.emits d q).parenthesized
  | .list vs => by
      rw [Arg.emit, Arg.render]
      exact Emits.valueList vs

theorem Arg.emits_all (d : Dialect) (excluded : List String) :
    ∀ as : List Arg, List.Forall₂ (Emits d) (Arg.emitAll excluded as) (Arg.renderAll d excluded as)
  | [] => by
      rw [Arg.emitAll, Arg.renderAll]
      exact .nil
  | a :: rest => by
      rw [Arg.emitAll, Arg.renderAll]
      exact .cons (Arg.emits d excluded a) (Arg.emits_all d excluded rest)

/-- The rows of VALUES, each in its parentheses. -/
theorem Arg.emits_rows (d : Dialect) :
    ∀ rows : List (List Arg), List.Forall₂ (Emits d) (Arg.emitRows rows) (Arg.renderRows d rows)
  | [] => by
      rw [Arg.emitRows, Arg.renderRows]
      exact .nil
  | row :: rest => by
      rw [Arg.emitRows, Arg.renderRows]
      exact .cons (Emits.separated ", " (Arg.emits_all d [] row)).parenthesized
        (Arg.emits_rows d rest)

/-- A field in front of its marks is emitted as it is rendered. -/
theorem Field.emits (d : Dialect) (excluded : List String) :
    ∀ f : Field, Emits d (f.emit excluded) (f.render d excluded)
  | .plain term marks => by
      rw [Field.emit, Field.render]
      exact (Emits.term excluded term).seq (Emits.marks marks)
  | .derived template args marks => by
      rw [Field.emit, Field.render]
      exact (Emits.template _ (Arg.emits_all d excluded args)).seq (Emits.marks marks)
  | .verbatim sql => by
      rw [Field.emit, Field.render]
      exact Emits.text sql
  | .condition p => by
      rw [Field.emit, Field.render]
      exact Predicate.emits d excluded p

theorem Field.emits_all (d : Dialect) (excluded : List String) :
    ∀ fs : List Field,
      List.Forall₂ (Emits d) (Field.emitAll excluded fs) (Field.renderAll d excluded fs)
  | [] => by
      rw [Field.emitAll, Field.renderAll]
      exact .nil
  | f :: rest => by
      rw [Field.emitAll, Field.renderAll]
      exact .cons (Field.emits d excluded f) (Field.emits_all d excluded rest)

/-- The tree of a predicate is emitted without building the condition in between. -/
theorem Predicate.emits (d : Dialect) (excluded : List String) :
    ∀ p : Predicate, Emits d (p.emit excluded) (p.toCondition d excluded).render
  | .template negated template args asName => by
      rw [Predicate.emit, Predicate.toCondition, Condition.render]
      exact (Emits.negation negated).seq (Emits.template _ (Arg.emits_all d excluded args))
  | .group negated connective members asName => by
      rw [Predicate.emit, Predicate.toCondition]
      exact Emits.group negated connective (Predicate.emits_all d excluded members)
  | .flag negated term marks => by
      rw [Predicate.emit, Predicate.toCondition, Condition.render]
      exact (Emits.negation negated).seq ((Emits.term excluded term).seq (Emits.marks marks))

theorem Predicate.emits_all (d : Dialect) (excluded : List String) :
    ∀ ps : List Predicate, List.Forall₂ (Emits d) (Predicate.emitAll excluded ps)
      (Condition.renderAll (Predicate.toConditions d excluded ps))
  | [] => by
      rw [Predicate.emitAll, Predicate.toConditions, Condition.renderAll]
      exact .nil
  | p :: rest => by
      rw [Predicate.emitAll, Predicate.toConditions, Condition.renderAll]
      exact .cons (Predicate.emits d excluded p) (Predicate.emits_all d excluded rest)

/-- Only the target of an assignment leaves out qualifiers, on both sides. -/
theorem Assignment.emits (d : Dialect) (excluded : List String) :
    ∀ a : Assignment, Emits d (a.emit excluded) (a.render d excluded)
  | ⟨target, value⟩ => by
      rw [Assignment.emit, Assignment.render, List.append_assoc]
      exact (Field.emits d excluded target).seq ((Emits.text " = ").seq (Arg.emits d [] value))

theorem Assignment.emits_all (d : Dialect) (excluded : List String) :
    ∀ set : List Assignment,
      List.Forall₂ (Emits d) (Assignment.emitAll excluded set) (Assignment.renderAll d excluded set)
  | [] => by
      rw [Assignment.emitAll, Assignment.renderAll]
      exact .nil
  | a :: rest => by
      rw [Assignment.emitAll, Assignment.renderAll]
      exact .cons (Assignment.emits d excluded a) (Assignment.emits_all d excluded rest)

/-- A reference to a common table emits its name and not its body. -/
theorem Table.emits (d : Dialect) : ∀ t : Table, Emits d t.emit (t.source d).reference
  | .base t => by
      rw [Table.emit, Table.source]
      exact Emits.reference t
  | .query q => by
      rw [Table.emit, Table.source]
      exact (Query.emits d q).parenthesized.seq (Emits.asNameOf q.asName "")
  | .common c => by
      rw [Table.emit, Table.source]
      exact (Emits.ident c.name).seq (Emits.asNameOf c.asName c.name)

/-- A table stands in need of the same common table on both sides. -/
theorem Table.defines (d : Dialect) :
    ∀ t : Table, List.Forall₂ (Entry.Defines d) t.entries (t.source d).definitions
  | .base t => by
      rw [Table.entries, Table.source]
      exact .nil
  | .query q => by
      rw [Table.entries, Table.source]
      exact .nil
  | .common c => by
      rw [Table.entries, Table.source]
      exact .cons (CommonTable.defines d c) .nil

theorem Table.emits? (d : Dialect) (keyword : String) : ∀ t : Option Table,
    Emits d (Emission.source keyword (Table.emit? t)) (sourceClause keyword (Table.source? d t))
  | none => by
      rw [Table.emit?, Table.source?]
      exact Emits.nothing
  | some t => by
      rw [Table.emit?, Table.source?]
      exact (Emits.text keyword).seq (Table.emits d t)

theorem Table.defines? (d : Dialect) : ∀ t : Option Table,
    List.Forall₂ (Entry.Defines d) (Table.entries? t)
      (((Table.source? d t).map (·.definitions)).getD [])
  | none => by
      rw [Table.entries?, Table.source?]
      exact .nil
  | some t => by
      rw [Table.entries?, Table.source?]
      exact Table.defines d t

/-- A body is emitted into the same writer as the statement around it. -/
theorem CommonTable.defines (d : Dialect) :
    ∀ c : CommonTable, Entry.Defines d c.entry (c.definition d)
  | ⟨name, asName, recursive, query⟩ => by
      rw [CommonTable.entry, CommonTable.definition]
      exact ⟨rfl, rfl, Query.emits d query⟩

theorem CommonTable.defines_all (d : Dialect) : ∀ cs : List CommonTable,
    List.Forall₂ (Entry.Defines d) (CommonTable.entries cs) (CommonTable.definitions d cs)
  | [] => by
      rw [CommonTable.entries, CommonTable.definitions]
      exact .nil
  | c :: rest => by
      rw [CommonTable.entries, CommonTable.definitions]
      exact .cons (CommonTable.defines d c) (CommonTable.defines_all d rest)

/-- The conditions of a join are one group behind ON. -/
theorem Join.emits (d : Dialect) : ∀ j : Join, Emits d j.emit (j.source d).reference
  | ⟨kind, table, conditions⟩ => by
      rw [Join.emit, Join.source, List.append_assoc, List.append_assoc]
      refine (Emits.text kind.keyword).seq ((Emits.text " ").seq ((Table.emits d table).seq ?_))
      exact Emits.skipIf _ ((Emits.text " ON ").seq
        (Emits.group false .and (Predicate.emits_all d [] conditions)))

theorem Join.emits_all (d : Dialect) : ∀ js : List Join,
    List.Forall₂ (Emits d) (Join.emitAll js) ((Join.sources d js).map (·.reference))
  | [] => by
      rw [Join.emitAll, Join.sources]
      exact .nil
  | j :: rest => by
      rw [Join.emitAll, Join.sources]
      exact .cons (Join.emits d j) (Join.emits_all d rest)

theorem Join.defines_all (d : Dialect) : ∀ js : List Join,
    List.Forall₂ (Entry.Defines d) (Join.entries js) ((Join.sources d js).flatMap (·.definitions))
  | [] => by
      rw [Join.entries, Join.sources]
      exact .nil
  | ⟨kind, table, conditions⟩ :: rest => by
      rw [Join.entries, Join.sources, Join.source]
      exact List.rel_append (Table.defines d table) (Join.defines_all d rest)

/-- Of a select, core, tail and common tables correspond one by one, since a member lends only some
of them to the statement around it. -/
theorem Select.writes (d : Dialect) : ∀ s : Select, s.emission.Writes d (s.compound d)
  | { dialect, asName, ctes, distinct, distinctOn, fields, source, joins, conditions, groupBy,
      having, orderBy, limit, offset, members } => by
      have hctes := CommonTable.defines_all d ctes
      have hmembers := Member.writes_all d members
      have hreferenced := List.rel_append
        (List.rel_append (Table.defines? d source) (Join.defines_all d joins))
        (SelectEmission.Writes.flatMap (fun h => h.referenced) hmembers)
      have hentries := Entry.Defines.collect hctes (List.rel_append hreferenced
        (SelectEmission.Writes.flatMap (fun h => h.explicit) hmembers))
      have hcore := (Emits.text "SELECT ").seq
        ((Emits.distinct distinct (Field.emits_all d [] distinctOn)).seq
          ((Emits.selectList fields (Field.emits_all d [] fields)).seq
            ((Table.emits? d " FROM " source).seq
              ((Emits.joins (Join.emits_all d joins)).seq
                ((Emits.conditions "WHERE" (Predicate.emits_all d [] conditions)).seq
                  ((Emits.list " GROUP BY " (Field.emits_all d [] groupBy)).seq
                    ((Emits.conditions "HAVING" (Predicate.emits_all d [] having)).seq
                      (SelectEmission.Writes.members hmembers))))))))
      have htail := (Emits.list " ORDER BY " (Field.emits_all d [] orderBy)).seq
        ((Emits.number " LIMIT " limit).seq (Emits.number " OFFSET " offset))
      rw [Field.renderAll_isEmpty] at hcore
      rw [Select.emission, Select.compound]
      refine ⟨hctes, ?_, ?_, ?_, ?_, ?_⟩
      · rw [Compound.referenced, Compound.referencedAll_eq_flatMap]
        exact hreferenced
      · rw [Compound.definitions, Compound.referenced, Compound.referencedAll_eq_flatMap]
        exact hentries
      · simpa only [Compound.core, Compound.members, List.append_assoc] using hcore
      · simpa only [Compound.tail, List.append_assoc] using htail
      · simp only [Compound.isPlain, append_isEmpty, listClause_isEmpty, numberClause_isEmpty,
          Field.renderAll_isEmpty, Member.emissions_isEmpty, Member.compounds_isEmpty]

theorem Member.writes_all (d : Dialect) : ∀ ms : List Member,
    SelectEmission.Writes.All d (Member.emissions ms) (Member.compounds d ms)
  | [] => by
      rw [Member.emissions, Member.compounds]
      exact .nil
  | ⟨operator, query⟩ :: rest => by
      rw [Member.emissions, Member.compounds]
      exact .cons ⟨rfl, Select.writes d query⟩ (Member.writes_all d rest)

/-- The rows of an insertion, else its select. -/
theorem Select.emits? (d : Dialect) : ∀ (rows : List Emission) (rendered : List Fragment)
    (_ : List.Forall₂ (Emits d) rows rendered) (s : Option Select),
    Emits d (Emission.content rows (Select.emit? s))
      (if !rendered.isEmpty then Fragment.text " VALUES " ++ Fragment.separated ", " rendered
        else if s.isSome then Fragment.text " " ++ Select.render? d s
        else [])
  | rows, rendered, h, none => by
      unfold Emission.content
      rw [forall₂_isEmpty_eq h, Select.emit?]
      exact Emits.ite (fun _ => (Emits.text " VALUES ").seq (Emits.separated ", " h))
        (fun _ => Emits.nothing)
  | rows, rendered, h, some s => by
      unfold Emission.content
      rw [forall₂_isEmpty_eq h, Select.emit?, Select.render?]
      exact Emits.ite (fun _ => (Emits.text " VALUES ").seq (Emits.separated ", " h))
        (fun _ => (Emits.text " ").seq (Select.writes d s).emit)

/-- What is written behind the assignments of a conflict is known only to the insertion. -/
theorem Conflict.emits? (d : Dialect) (excluded : List String) {resolution : Emission}
    {rendered : Fragment} (h : Emits d resolution rendered) : ∀ c : Option Conflict,
    Emits d (Conflict.emit? excluded resolution c) (Conflict.render? d excluded rendered c)
  | none => by
      rw [Conflict.emit?, Conflict.render?]
      exact Emits.nothing
  | some ⟨fields, constraint, conditions, none⟩ => by
      have htarget := Emits.conflictTarget constraint (Field.emits_all d excluded fields)
      rw [Field.renderAll_isEmpty] at htarget
      rw [Conflict.emit?, Conflict.render?]
      simp only [List.append_assoc]
      exact (Emits.text " ON CONFLICT").seq (htarget.seq
        ((Emits.conditions "WHERE" (Predicate.emits_all d [] conditions)).seq
          (Emits.text " DO NOTHING")))
  | some ⟨fields, constraint, conditions, some set⟩ => by
      have htarget := Emits.conflictTarget constraint (Field.emits_all d excluded fields)
      rw [Field.renderAll_isEmpty] at htarget
      rw [Conflict.emit?, Conflict.render?]
      simp only [List.append_assoc]
      exact (Emits.text " ON CONFLICT").seq (htarget.seq
        ((Emits.conditions "WHERE" (Predicate.emits_all d [] conditions)).seq
          ((Emits.text " DO UPDATE SET ").seq
            ((Emits.separated ", " (Assignment.emits_all d excluded set)).seq h))))

/-- An insertion is emitted clause by clause as it is rendered. -/
theorem Insert.emits (d : Dialect) : ∀ s : Insert, Emits d s.emit (s.render d)
  | { dialect, asName, ctes, ignore, target, columns, rows, source, conflict, resolution,
      onDuplicate, returning } => by
      have hctes := Entry.Defines.clause (CommonTable.defines_all d ctes)
      have hcolumns := Emits.columns (Field.emits_all d [target.qualifier] columns)
      have hcontent := Select.emits? d _ _ (Arg.emits_rows d rows) source
      have hconflict := Conflict.emits? d [target.qualifier]
        (Emits.conditions "WHERE" (Predicate.emits_all d [] resolution)) conflict
      have honDuplicate := Emits.list " ON DUPLICATE KEY UPDATE "
        (Assignment.emits_all d [target.qualifier] onDuplicate)
      have hreturning := Emits.returning returning (Field.emits_all d [] returning)
      rw [Field.renderAll_isEmpty] at hcolumns
      rw [Arg.renderRows_isEmpty] at hcontent
      rw [Insert.emit, Insert.render]
      simp only [List.append_assoc]
      exact hctes.seq ((Emits.text _).seq ((Emits.insertTarget target).seq
        (hcolumns.seq (hcontent.seq (hconflict.seq (honDuplicate.seq hreturning))))))

/-- The joins of an update are emitted in front of SET or behind it, depending on the dialect of the
writer. -/
theorem Update.emits (d : Dialect) : ∀ s : Update, Emits d s.emit (s.render d)
  | { dialect, asName, ctes, target, assignments, source, joins, conditions, orderBy, limit,
      returning } => by
      have hctes := Entry.Defines.clause (Entry.Defines.collect (CommonTable.defines_all d ctes)
        (List.rel_append (Table.defines? d source) (Join.defines_all d joins)))
      have hjoins := Emits.joins (Join.emits_all d joins)
      have hassignments (excluded : List String) :=
        Emits.list " SET " (Assignment.emits_all d excluded assignments)
      have hsource := Table.emits? d " FROM " source
      have hconditions := Emits.conditions "WHERE" (Predicate.emits_all d [] conditions)
      have horder := Emits.list " ORDER BY " (Field.emits_all d [] orderBy)
      have hreturning := Emits.returning returning (Field.emits_all d [] returning)
      rw [Update.emit, Update.render, Join.sources_isEmpty]
      refine Emits.forDialect ?_
      simp only [@List.append_assoc Piece]
      refine hctes.seq ((Emits.text "UPDATE ").seq ((Emits.target target).seq (Emits.seq ?_
        ((hassignments _).seq (Emits.seq ?_ (hconditions.seq (horder.seq
          ((Emits.number " LIMIT " limit).seq hreturning))))))))
      · cases d
        exacts [hjoins, Emits.nothing]
      · cases d
        exacts [Emits.nothing, hsource.seq hjoins]

/-- A deletion is emitted clause by clause as it is rendered. -/
theorem Delete.emits (d : Dialect) : ∀ s : Delete, Emits d s.emit (s.render d)
  | { dialect, asName, ctes, targets, source, joins, conditions, orderBy, limit, returning } => by
      have hctes := Entry.Defines.clause (Entry.Defines.collect (CommonTable.defines_all d ctes)
        (List.rel_append (Table.defines? d source) (Join.defines_all d joins)))
      have htargets := Emits.deleteTargets (d := d) source.isSome targets
      have hsource := Table.emits? d " USING " source
      have hjoins := Emits.joins (Join.emits_all d joins)
      have hconditions := Emits.conditions "WHERE" (Predicate.emits_all d [] conditions)
      have horder := Emits.list " ORDER BY " (Field.emits_all d [] orderBy)
      have hreturning := Emits.returning returning (Field.emits_all d [] returning)
      rw [Delete.emit, Delete.render, Table.source?_isSome]
      simp only [@List.append_assoc Piece]
      exact hctes.seq ((Emits.text "DELETE FROM ").seq (htargets.seq (hsource.seq (hjoins.seq
        (hconditions.seq (horder.seq ((Emits.number " LIMIT " limit).seq hreturning)))))))

/-- Every statement is emitted as it is rendered, into a writer of any dialect. -/
theorem Query.emits (d : Dialect) : ∀ q : Query, Emits d q.emit (q.render d)
  | .select s => by
      rw [Query.emit, Query.render]
      exact (Select.writes d s).emit
  | .insert s => by
      rw [Query.emit, Query.render]
      exact Insert.emits d s
  | .update s => by
      rw [Query.emit, Query.render]
      exact Update.emits d s
  | .delete s => by
      rw [Query.emit, Query.render]
      exact Delete.emits d s

end

theorem Node.emits (d : Dialect) (excluded : List String) (n : Node) :
    Emits d (n.emit excluded) (n.render d excluded) := by
  cases n with
  | arg a => exact Arg.emits d excluded a
  | field f => exact Field.emits d excluded f
  | predicate p => exact Predicate.emits d excluded p
  | fields fs => exact Emits.separated ", " (Field.emits_all d excluded fs)
  | selectList fs => exact Emits.separated ", " (Emits.selected fs (Field.emits_all d excluded fs))
  | assignments set => exact Emits.separated ", " (Assignment.emits_all d excluded set)
  | table t => exact Table.emits d t
  | joins js => exact Emits.separated " " (Join.emits_all d js)
  | commonTables cs =>
      exact Entry.Defines.clause (CommonTable.defines_all d cs)
  | query q => exact Query.emits d q

/-- Compiling writes the fragment of the statement. -/
theorem Query.compile_eq_compiled (q : Query) :
    q.compile = (q.render q.dialect).compiled q.dialect := by
  rw [Query.compile, Query.emits q.dialect q (Writer.new q.dialect) rfl, Fragment.compiled]

/-- Compiling places the fragment of the statement behind no arguments. -/
theorem Query.compile_eq (q : Query) :
    q.compile = ⟨(q.render q.dialect).placed q.dialect 0, (q.render q.dialect).args⟩ := by
  rw [q.compile_eq_compiled, Fragment.compiled, Writer.write_eq]
  simp [Writer.new, Writer.compiled]

end BoundSql.Sql
