import BoundSql.Proofs.Emission
import BoundSql.Sql.Alike

/-!
# Bound values never become text

Statements that are alike render to fragments that are alike, piece by piece: the verbatim pieces
are equal and the bound values related. So compiling them gives the same text, and the arguments
correspond position by position.
-/
namespace BoundSql.Sql

open Fragment (text ident bound parenthesized separated)

/-- Text is the same on both sides; a placeholder has related values behind it. -/
inductive Piece.Alike (R : Value → Value → Prop) : Piece → Piece → Prop
  | text (s : String) : Piece.Alike R (.text s) (.text s)
  | bound {v v' : Value} (h : R v v') : Piece.Alike R (.bound v) (.bound v')

/-- Fragments with the same texts in the same places and related bound values between them. -/
abbrev Fragment.Alike (R : Value → Value → Prop) : Fragment → Fragment → Prop :=
  List.Forall₂ (Piece.Alike R)

theorem rel_isSome_eq {α β : Type} {S : α → β → Prop} {x : Option α} {y : Option β}
    (h : Option.Rel S x y) : x.isSome = y.isSome := by
  cases h <;> rfl

variable {R : Value → Value → Prop}

namespace Fragment.Alike

variable {f f' g g' : Fragment} {fs fs' : List Fragment}

/-- The values behind the placeholders of alike fragments correspond one by one. -/
theorem args (h : f.Alike R f') : List.Forall₂ R f.args f'.args := by
  induction h with
  | nil => exact .nil
  | cons h _ ih =>
      cases h with
      | text s => exact ih
      | bound h => exact .cons h ih

/-- The text of a fragment shows nothing of the values bound in it. -/
theorem placed_eq (d : Dialect) (before : Nat) (h : f.Alike R f') :
    f.placed d before = f'.placed d before := by
  induction h generalizing before with
  | nil => rfl
  | cons h _ ih => cases h <;> simp only [placed, ih]

/-- Alikeness is kept by every way to put fragments together; what is not a value is the same on
both sides. -/
theorem append (h : f.Alike R f') (h' : g.Alike R g') : Fragment.Alike R (f ++ g) (f' ++ g') :=
  List.rel_append h h'

theorem text (s : String) : Fragment.Alike R (Fragment.text s) (Fragment.text s) :=
  .cons (.text s) .nil

theorem ident (name : String) : Fragment.Alike R (Fragment.ident name) (Fragment.ident name) :=
  .cons (.text _) .nil

theorem bound {v v' : Value} (h : R v v') :
    Fragment.Alike R (Fragment.bound v) (Fragment.bound v') :=
  .cons (.bound h) .nil

/-- Which of two fragments is taken may not depend on values. -/
theorem ite (p : Prop) [Decidable p] (h : f.Alike R f') (h' : g.Alike R g') :
    Fragment.Alike R (if p then f else g) (if p then f' else g') := by
  split
  · exact h
  · exact h'

theorem parenthesized (h : f.Alike R f') : Fragment.Alike R f.parenthesized f'.parenthesized :=
  ((text "(").append h).append (text ")")

theorem separated (separator : String) (h : List.Forall₂ (Fragment.Alike R) fs fs') :
    Fragment.Alike R (Fragment.separated separator fs) (Fragment.separated separator fs') := by
  induction h with
  | nil => exact .nil
  | cons h hs ih =>
      cases hs with
      | nil => exact h
      | cons h' hs => exact (h.append (text separator)).append ih

theorem listClause (keyword : String) (h : List.Forall₂ (Fragment.Alike R) fs fs') :
    Fragment.Alike R (Sql.listClause keyword fs) (Sql.listClause keyword fs') := by
  unfold Sql.listClause
  rw [forall₂_isEmpty_eq h]
  exact ite _ .nil ((text keyword).append (separated ", " h))

/-- Of a limit it shows whether there is one, and nothing else. -/
theorem numberClause (keyword : String) {n n' : Option Int64} (h : NumberAlike R n n') :
    Fragment.Alike R (Sql.numberClause keyword n) (Sql.numberClause keyword n') := by
  cases h with
  | none => exact .nil
  | some h => exact (text keyword).append (bound h)

/-- Of a list it shows how long it is. -/
theorem valueList {vs vs' : List Value} (h : List.Forall₂ R vs vs') :
    Fragment.Alike R (Sql.valueList vs) (Sql.valueList vs') := by
  unfold Sql.valueList
  rw [forall₂_isEmpty_eq h]
  have hbound : List.Forall₂ (Fragment.Alike R) (vs.map Fragment.bound) (vs'.map Fragment.bound) :=
    List.rel_map (fun _ _ h => bound h) h
  exact ite _ (text "(NULL)") (separated ", " hbound).parenthesized

theorem asNameOf (name own : String) :
    Fragment.Alike R (Sql.asNameOf name own) (Sql.asNameOf name own) :=
  ite _ .nil ((text " AS ").append (ident name))

/-- Elements of a select list, if the fields have the same names after AS. -/
theorem selected {gs gs' : List Field}
    (hgs : List.Forall₂ (fun g g' => g.asName = g'.asName) gs gs')
    (h : List.Forall₂ (Fragment.Alike R) fs fs') :
    List.Forall₂ (Fragment.Alike R) (Sql.selected gs fs) (Sql.selected gs' fs') := by
  unfold Sql.selected
  induction h generalizing gs gs' with
  | nil => cases hgs <;> exact .nil
  | cons h _ ih =>
      cases hgs with
      | nil => exact .nil
      | cons hg hgs =>
          rw [List.zipWith_cons_cons, List.zipWith_cons_cons, hg]
          exact .cons (h.append (ite _ .nil ((text " AS ").append (ident _)))) (ih hgs)

theorem selectList {gs gs' : List Field}
    (hgs : List.Forall₂ (fun g g' => g.asName = g'.asName) gs gs')
    (h : List.Forall₂ (Fragment.Alike R) fs fs') :
    Fragment.Alike R (Sql.selectList gs fs) (Sql.selectList gs' fs') := by
  unfold Sql.selectList
  rw [forall₂_isEmpty_eq hgs]
  exact ite _ (text "NULL") (separated ", " (selected hgs h))

theorem returningClause {gs gs' : List Field}
    (hgs : List.Forall₂ (fun g g' => g.asName = g'.asName) gs gs')
    (h : List.Forall₂ (Fragment.Alike R) fs fs') :
    Fragment.Alike R (Sql.returningClause gs fs) (Sql.returningClause gs' fs') :=
  listClause " RETURNING " (selected hgs h)

theorem conflictTarget {gs gs' : List Field} (constraint : String)
    (hgs : gs.isEmpty = gs'.isEmpty) (h : List.Forall₂ (Fragment.Alike R) fs fs') :
    Fragment.Alike R
      (if !gs.isEmpty then Fragment.text " " ++ (Fragment.separated ", " fs).parenthesized
        else if !constraint.isEmpty then
          Fragment.text " ON CONSTRAINT " ++ Fragment.ident constraint
        else [])
      (if !gs'.isEmpty then Fragment.text " " ++ (Fragment.separated ", " fs').parenthesized
        else if !constraint.isEmpty then
          Fragment.text " ON CONSTRAINT " ++ Fragment.ident constraint
        else []) := by
  rw [hgs]
  exact ite _ ((text " ").append (separated ", " h).parenthesized)
    (ite _ ((text " ON CONSTRAINT ").append (ident constraint)) .nil)

/-- A template is read alike whatever fills its slots. -/
theorem filled (ps : List Template.Part) (h : List.Forall₂ (Fragment.Alike R) fs fs') :
    Fragment.Alike R (Template.filled ps fs) (Template.filled ps fs') := by
  induction ps generalizing fs fs' with
  | nil => cases h <;> exact .nil
  | cons p ps ih =>
      cases p with
      | char c => exact .cons (.text _) (ih h)
      | slot =>
          cases h with
          | nil => exact .cons (.text _) (ih .nil)
          | cons h hs => exact h.append (ih hs)

theorem marks (m : Marks) : Fragment.Alike R m.order m.order := by
  obtain ⟨_, direction, nulls⟩ := m
  refine append ?_ ?_
  · rcases direction with _ | (_ | _)
    exacts [.nil, text " ASC", text " DESC"]
  · rcases nulls with _ | (_ | _)
    exacts [.nil, text " NULLS FIRST", text " NULLS LAST"]

theorem term (excluded : List String) {t t' : Term} (h : t.Alike R t') :
    Fragment.Alike R (t.render excluded) (t'.render excluded) := by
  cases h with
  | literal h => exact bound h
  | column qualifier name =>
      exact (ite _ .nil ((ident qualifier).append (text "."))).append (ident name)

theorem baseTable (t : BaseTable) : Fragment.Alike R t.render t.render :=
  (ite _ .nil ((ident t.schema).append (text "."))).append (ident t.name)

theorem reference (t : BaseTable) : Fragment.Alike R t.reference t.reference :=
  (baseTable t).append (asNameOf t.asName t.name)

theorem target (t : BaseTable) : Fragment.Alike R (targetReference t) (targetReference t) :=
  ite _ (text "NULL") (reference t)

theorem insertTarget (d : Dialect) (t : BaseTable) :
    Fragment.Alike R (Sql.insertTarget d t) (Sql.insertTarget d t) :=
  ite _ (text "NULL") (ite _ (reference t) (baseTable t))

theorem deleteTargets (d : Dialect) (hasUsing : Bool) (ts : List BaseTable) :
    Fragment.Alike R (Sql.deleteTargets d hasUsing ts) (Sql.deleteTargets d hasUsing ts) := by
  refine ite _ (text "NULL") (separated ", " ?_)
  rw [List.forall₂_map_left_iff, List.forall₂_map_right_iff]
  exact List.forall₂_same.mpr fun t _ =>
    ite _ (ite _ (baseTable t) (ident t.asName)) (reference t)

end Fragment.Alike

/-- Conditions of the same form over atoms that are alike. -/
inductive Condition.Alike (R : Value → Value → Prop) : Condition → Condition → Prop
  | atom {f f' : Fragment} (negated : Bool) (h : f.Alike R f') :
      Condition.Alike R (.atom negated f) (.atom negated f')
  | group {cs cs' : List Condition} (negated : Bool) (connective : Connective)
      (h : List.Forall₂ (Condition.Alike R) cs cs') :
      Condition.Alike R (.group negated connective cs) (.group negated connective cs')

namespace Condition.Alike

theorem negation (negated : Bool) :
    Fragment.Alike R (Condition.negation negated) (Condition.negation negated) :=
  .ite _ (.text "NOT ") .nil

mutual

theorem render : ∀ {c c' : Condition}, c.Alike R c' → Fragment.Alike R c.render c'.render
  | .atom negated f, _, .atom _ h => by
      rw [Condition.render, Condition.render]
      exact (negation negated).append h
  | .group negated connective cs, .group _ _ cs', .group _ _ h => by
      have hs := renderAll h
      rw [Condition.render, Condition.render]
      generalize Condition.renderAll cs = fs at hs
      generalize Condition.renderAll cs' = fs' at hs
      match hs with
      | .nil => exact .nil
      | .cons h .nil => exact (negation negated).append h
      | .cons h (.cons h' hs) =>
          exact (negation negated).append (.parenthesized (.separated _ (.cons h (.cons h' hs))))

theorem renderAll : ∀ {cs cs' : List Condition}, List.Forall₂ (Condition.Alike R) cs cs' →
    List.Forall₂ (Fragment.Alike R) (Condition.renderAll cs) (Condition.renderAll cs')
  | [], _, .nil => by
      rw [Condition.renderAll]
      exact .nil
  | _ :: _, _, .cons h hs => by
      rw [Condition.renderAll, Condition.renderAll]
      exact .cons (render h) (renderAll hs)

end

theorem clause (keyword : String) {cs cs' : List Condition}
    (h : List.Forall₂ (Condition.Alike R) cs cs') :
    Fragment.Alike R (Condition.clause keyword cs) (Condition.clause keyword cs') := by
  unfold Condition.clause Condition.conjunction
  rw [forall₂_isEmpty_eq h]
  exact .ite _ .nil ((Fragment.Alike.text _).append (.separated " AND " (renderAll h)))

end Condition.Alike

/-- Definitions with one name and alike bodies. -/
structure Definition.Alike (R : Value → Value → Prop) (c c' : Definition) : Prop where
  name : c.name = c'.name
  recursive : c.recursive = c'.recursive
  body : c.body.Alike R c'.body

namespace Definition.Alike

variable {cs cs' : List Definition}

theorem collect {ds ds' : List Definition} (h : List.Forall₂ (Definition.Alike R) cs cs')
    (h' : List.Forall₂ (Definition.Alike R) ds ds') :
    List.Forall₂ (Definition.Alike R) (Definition.collect cs ds) (Definition.collect cs' ds') :=
  forall₂_addAllNew (fun _ _ h => h.name) h h'

theorem render {c c' : Definition} (h : c.Alike R c') : Fragment.Alike R c.render c'.render := by
  unfold Definition.render
  rw [h.name]
  exact ((Fragment.Alike.ident _).append (.text " AS ")).append (.parenthesized h.body)

theorem any_recursive (h : List.Forall₂ (Definition.Alike R) cs cs') :
    cs.any (·.recursive) = cs'.any (·.recursive) :=
  forall₂_any_eq (fun _ _ h => h.recursive) h

theorem clause (h : List.Forall₂ (Definition.Alike R) cs cs') :
    Fragment.Alike R (Definition.clause cs) (Definition.clause cs') := by
  have hrender : List.Forall₂ (Fragment.Alike R) (cs.map Definition.render)
      (cs'.map Definition.render) :=
    List.rel_map (fun _ _ h => h.render) h
  unfold Definition.clause
  rw [forall₂_isEmpty_eq h, any_recursive h]
  exact .ite _ .nil (((Fragment.Alike.text _).append (.separated ", " hrender)).append (.text " "))

end Definition.Alike

/-- Tables that are referred to alike and need alike definitions. -/
structure Source.Alike (R : Value → Value → Prop) (s s' : Source) : Prop where
  reference : s.reference.Alike R s'.reference
  definitions : List.Forall₂ (Definition.Alike R) s.definitions s'.definitions

namespace Source.Alike

variable {s s' : Option Source} {ss ss' : List Source}

theorem clause (keyword : String) (h : Option.Rel (Source.Alike R) s s') :
    Fragment.Alike R (sourceClause keyword s) (sourceClause keyword s') := by
  cases h with
  | none => exact .nil
  | some h => exact (Fragment.Alike.text keyword).append h.reference

theorem joins (h : List.Forall₂ (Source.Alike R) ss ss') :
    Fragment.Alike R (joinsClause ss) (joinsClause ss') := by
  unfold joinsClause
  rw [forall₂_isEmpty_eq h]
  have hreferences : List.Forall₂ (Fragment.Alike R) (ss.map (·.reference))
      (ss'.map (·.reference)) :=
    List.rel_map (fun _ _ h => h.reference) h
  exact .ite _ .nil ((Fragment.Alike.text " ").append (.separated " " hreferences))

theorem referenced (h : Option.Rel (Source.Alike R) s s')
    (hs : List.Forall₂ (Source.Alike R) ss ss') :
    List.Forall₂ (Definition.Alike R)
      ((s.map (·.definitions)).getD [] ++ ss.flatMap (·.definitions))
      ((s'.map (·.definitions)).getD [] ++ ss'.flatMap (·.definitions)) := by
  refine List.rel_append ?_ ?_
  · cases h with
    | none => exact .nil
    | some h => exact h.definitions
  · induction hs with
    | nil => exact .nil
    | cons h _ ih => exact List.rel_append h.definitions ih

theorem withClause {explicit explicit' : List Definition}
    (he : List.Forall₂ (Definition.Alike R) explicit explicit')
    (h : Option.Rel (Source.Alike R) s s') (hs : List.Forall₂ (Source.Alike R) ss ss') :
    Fragment.Alike R (Sql.withClause explicit s ss) (Sql.withClause explicit' s' ss') := by
  unfold Sql.withClause
  exact Definition.Alike.clause (Definition.Alike.collect he (referenced h hs))

end Source.Alike

/-- Compounds whose parts are alike, wherever the parts are written. -/
structure Compound.Alike (R : Value → Value → Prop) (c c' : Compound) : Prop where
  explicit : List.Forall₂ (Definition.Alike R) c.explicit c'.explicit
  referenced : List.Forall₂ (Definition.Alike R) c.referenced c'.referenced
  definitions : List.Forall₂ (Definition.Alike R) c.definitions c'.definitions
  body : Fragment.Alike R c.body c'.body
  isPlain : c.isPlain = c'.isPlain

namespace Compound.Alike

theorem render {c c' : Compound} (h : c.Alike R c') : Fragment.Alike R c.render c'.render :=
  (Definition.Alike.clause h.definitions).append h.body

/-- Members behind the same operators. -/
abbrev All (R : Value → Value → Prop) :=
  List.Forall₂ fun (m m' : SetOperator × Compound) => m.1 = m'.1 ∧ m.2.Alike R m'.2

variable {ms ms' : List (SetOperator × Compound)}

theorem bodyAll (h : All R ms ms') :
    Fragment.Alike R (Compound.bodyAll ms) (Compound.bodyAll ms') := by
  induction h with
  | nil => exact .nil
  | @cons m m' ms ms' h hs ih =>
      obtain ⟨operator, c⟩ := m
      obtain ⟨_, c'⟩ := m'
      obtain ⟨rfl, h⟩ := h
      rw [Compound.bodyAll, Compound.bodyAll, h.isPlain]
      exact ((Fragment.Alike.text _).append (.ite _ h.body (.parenthesized h.body))).append ih

theorem flatMap {g : Compound → List Definition}
    (hg : ∀ {c c'}, c.Alike R c' → List.Forall₂ (Definition.Alike R) (g c) (g c'))
    (h : All R ms ms') :
    List.Forall₂ (Definition.Alike R) (ms.flatMap fun m => g m.2) (ms'.flatMap fun m => g m.2) := by
  induction h with
  | nil => exact .nil
  | cons h _ ih => exact List.rel_append (hg h.2) ih

/-- A compound from parts that are alike. -/
theorem node {explicit explicit' referenced referenced' : List Definition}
    {core core' tail tail' : Fragment}
    (hexplicit : List.Forall₂ (Definition.Alike R) explicit explicit')
    (hreferenced : List.Forall₂ (Definition.Alike R) referenced referenced')
    (hcore : core.Alike R core') (htail : tail.Alike R tail') (hms : All R ms ms') :
    Compound.Alike R (.node explicit referenced core tail ms)
      (.node explicit' referenced' core' tail' ms') := by
  have hdeep := List.rel_append hreferenced (flatMap (fun h => h.referenced) hms)
  refine ⟨hexplicit, ?_, ?_, ?_, ?_⟩
  · rw [Compound.referenced, Compound.referenced, referencedAll_eq_flatMap,
      referencedAll_eq_flatMap]
    exact hdeep
  · rw [Compound.definitions, Compound.definitions, Compound.referenced, Compound.referenced,
      referencedAll_eq_flatMap, referencedAll_eq_flatMap]
    exact Definition.Alike.collect hexplicit
      (List.rel_append hdeep (flatMap (fun h => h.explicit) hms))
  · rw [Compound.body, Compound.body]
    exact (hcore.append (bodyAll hms)).append htail
  · rw [Compound.isPlain, Compound.isPlain, forall₂_isEmpty_eq htail, forall₂_isEmpty_eq hms]

end Compound.Alike

/-- Names are never values. -/
theorem Field.Alike.asName_eq {f f' : Field} (h : f.Alike R f') : f.asName = f'.asName := by
  obtain _ | _ | _ | h := h
  · rfl
  · rfl
  · rfl
  · cases h <;> rfl

theorem Field.Alike.asNames_eq {fs fs' : List Field} (h : List.Forall₂ (Field.Alike R) fs fs') :
    List.Forall₂ (fun f f' : Field => f.asName = f'.asName) fs fs' :=
  h.imp fun _ _ h => h.asName_eq

theorem Query.Alike.asName_eq {q q' : Query} (h : q.Alike R q') : q.asName = q'.asName := by
  rcases h with ⟨⟨⟩⟩ | ⟨⟨⟩⟩ | ⟨⟨⟩⟩ | ⟨⟨⟩⟩ <;> assumption

theorem CommonTable.Alike.name_eq {c c' : CommonTable} (h : c.Alike R c') : c.name = c'.name := by
  cases h
  rfl

theorem CommonTable.Alike.asName_eq {c c' : CommonTable} (h : c.Alike R c') :
    c.asName = c'.asName := by
  cases h
  rfl

/-- The dialect is no value either. -/
theorem Query.Alike.dialect_eq {q q' : Query} (h : q.Alike R q') : q.dialect = q'.dialect := by
  rcases h with ⟨⟨⟩⟩ | ⟨⟨⟩⟩ | ⟨⟨⟩⟩ | ⟨⟨⟩⟩ <;> assumption

mutual

/-- An alike tree is rendered alike; by induction on the tree, one case per constructor. -/
theorem Arg.Alike.render (d : Dialect) (excluded : List String) :
    ∀ (a : Arg) {a' : Arg}, a.Alike R a' →
      Fragment.Alike R (a.render d excluded) (a'.render d excluded)
  | .value _, _, .value h => by
      rw [Arg.render, Arg.render]
      exact .bound h
  | .field f, _, .field h => by
      rw [Arg.render, Arg.render]
      exact Field.Alike.render d excluded f h
  | .query q, _, .query h => by
      rw [Arg.render, Arg.render]
      exact .parenthesized (Query.Alike.render d q h)
  | .list _, _, .list h => by
      rw [Arg.render, Arg.render]
      exact .valueList h
termination_by structural a => a

theorem Arg.Alike.renderAll (d : Dialect) (excluded : List String) :
    ∀ (as : List Arg) {as' : List Arg}, List.Forall₂ (Arg.Alike R) as as' →
      List.Forall₂ (Fragment.Alike R) (Arg.renderAll d excluded as) (Arg.renderAll d excluded as')
  | [], _, .nil => by
      rw [Arg.renderAll]
      exact .nil
  | a :: rest, _, .cons h hs => by
      rw [Arg.renderAll, Arg.renderAll]
      exact .cons (Arg.Alike.render d excluded a h) (Arg.Alike.renderAll d excluded rest hs)
termination_by structural as => as

theorem Arg.Alike.renderRows (d : Dialect) :
    ∀ (rows : List (List Arg)) {rows' : List (List Arg)},
      List.Forall₂ (List.Forall₂ (Arg.Alike R)) rows rows' →
        List.Forall₂ (Fragment.Alike R) (Arg.renderRows d rows) (Arg.renderRows d rows')
  | [], _, .nil => by
      rw [Arg.renderRows]
      exact .nil
  | row :: rest, _, .cons h hs => by
      rw [Arg.renderRows, Arg.renderRows]
      exact .cons (.parenthesized (.separated ", " (Arg.Alike.renderAll d [] row h)))
        (Arg.Alike.renderRows d rest hs)
termination_by structural rows => rows

theorem Field.Alike.render (d : Dialect) (excluded : List String) :
    ∀ (f : Field) {f' : Field}, f.Alike R f' →
      Fragment.Alike R (f.render d excluded) (f'.render d excluded)
  | .plain _ _, _, .plain marks h => by
      rw [Field.render, Field.render]
      exact (Fragment.Alike.term excluded h).append (.marks marks)
  | .derived _ args _, _, .derived template marks h => by
      rw [Field.render, Field.render]
      exact (Fragment.Alike.filled _ (Arg.Alike.renderAll d excluded args h)).append (.marks marks)
  | .verbatim _, _, .verbatim sql => by
      rw [Field.render]
      exact .text sql
  | .condition p, _, .condition h => by
      rw [Field.render, Field.render]
      exact (Predicate.Alike.toCondition d excluded p h).render
termination_by structural f => f

theorem Field.Alike.renderAll (d : Dialect) (excluded : List String) :
    ∀ (fs : List Field) {fs' : List Field}, List.Forall₂ (Field.Alike R) fs fs' →
      List.Forall₂ (Fragment.Alike R) (Field.renderAll d excluded fs)
        (Field.renderAll d excluded fs')
  | [], _, .nil => by
      rw [Field.renderAll]
      exact .nil
  | f :: rest, _, .cons h hs => by
      rw [Field.renderAll, Field.renderAll]
      exact .cons (Field.Alike.render d excluded f h) (Field.Alike.renderAll d excluded rest hs)
termination_by structural fs => fs

theorem Predicate.Alike.toCondition (d : Dialect) (excluded : List String) :
    ∀ (p : Predicate) {p' : Predicate}, p.Alike R p' →
      Condition.Alike R (p.toCondition d excluded) (p'.toCondition d excluded)
  | .template _ _ args _, _, .template negated template asName h => by
      rw [Predicate.toCondition, Predicate.toCondition]
      exact .atom negated (.filled _ (Arg.Alike.renderAll d excluded args h))
  | .group _ _ members _, _, .group negated connective asName h => by
      rw [Predicate.toCondition, Predicate.toCondition]
      exact .group negated connective (Predicate.Alike.toConditions d excluded members h)
  | .flag _ _ _, _, .flag negated marks h => by
      rw [Predicate.toCondition, Predicate.toCondition]
      exact .atom negated ((Fragment.Alike.term excluded h).append (.marks marks))
termination_by structural p => p

theorem Predicate.Alike.toConditions (d : Dialect) (excluded : List String) :
    ∀ (ps : List Predicate) {ps' : List Predicate}, List.Forall₂ (Predicate.Alike R) ps ps' →
      List.Forall₂ (Condition.Alike R) (Predicate.toConditions d excluded ps)
        (Predicate.toConditions d excluded ps')
  | [], _, .nil => by
      rw [Predicate.toConditions]
      exact .nil
  | p :: rest, _, .cons h hs => by
      rw [Predicate.toConditions, Predicate.toConditions]
      exact .cons (Predicate.Alike.toCondition d excluded p h)
        (Predicate.Alike.toConditions d excluded rest hs)
termination_by structural ps => ps

theorem Assignment.Alike.render (d : Dialect) (excluded : List String) :
    ∀ (a : Assignment) {a' : Assignment}, a.Alike R a' →
      Fragment.Alike R (a.render d excluded) (a'.render d excluded)
  | ⟨f, a⟩, _, .mk target value => by
      rw [Assignment.render, Assignment.render]
      exact ((Field.Alike.render d excluded f target).append (.text " = ")).append
        (Arg.Alike.render d [] a value)
termination_by structural a => a

theorem Assignment.Alike.renderAll (d : Dialect) (excluded : List String) :
    ∀ (set : List Assignment) {set' : List Assignment}, List.Forall₂ (Assignment.Alike R) set set' →
      List.Forall₂ (Fragment.Alike R) (Assignment.renderAll d excluded set)
        (Assignment.renderAll d excluded set')
  | [], _, .nil => by
      rw [Assignment.renderAll]
      exact .nil
  | a :: rest, _, .cons h hs => by
      rw [Assignment.renderAll, Assignment.renderAll]
      exact .cons (Assignment.Alike.render d excluded a h)
        (Assignment.Alike.renderAll d excluded rest hs)
termination_by structural set => set

theorem Table.Alike.source (d : Dialect) :
    ∀ (t : Table) {t' : Table}, t.Alike R t' → Source.Alike R (t.source d) (t'.source d)
  | .base _, _, .base t => by
      rw [Table.source]
      exact ⟨.reference t, .nil⟩
  | .query q, _, .query h => by
      rw [Table.source, Table.source, h.asName_eq]
      exact ⟨(Fragment.Alike.parenthesized (Query.Alike.render d q h)).append (.asNameOf _ _), .nil⟩
  | .common c, _, .common h => by
      have hc := CommonTable.Alike.definition d c h
      rw [Table.source, Table.source, h.name_eq, h.asName_eq]
      exact ⟨(Fragment.Alike.ident _).append (.asNameOf _ _), .cons hc .nil⟩
termination_by structural t => t

theorem Table.Alike.source? (d : Dialect) : ∀ (t : Option Table) {t' : Option Table},
    Option.Rel (Table.Alike R) t t' →
      Option.Rel (Source.Alike R) (Table.source? d t) (Table.source? d t')
  | none, _, .none => by
      rw [Table.source?]
      exact .none
  | some t, _, .some h => by
      rw [Table.source?, Table.source?]
      exact .some (Table.Alike.source d t h)
termination_by structural t => t

theorem CommonTable.Alike.definition (d : Dialect) :
    ∀ (c : CommonTable) {c' : CommonTable}, c.Alike R c' →
      Definition.Alike R (c.definition d) (c'.definition d)
  | ⟨_, _, _, q⟩, _, .mk name asName recursive h => by
      rw [CommonTable.definition, CommonTable.definition]
      exact ⟨rfl, rfl, Query.Alike.render d q h⟩
termination_by structural c => c

theorem CommonTable.Alike.definitions (d : Dialect) :
    ∀ (cs : List CommonTable) {cs' : List CommonTable}, List.Forall₂ (CommonTable.Alike R) cs cs' →
      List.Forall₂ (Definition.Alike R) (CommonTable.definitions d cs)
        (CommonTable.definitions d cs')
  | [], _, .nil => by
      rw [CommonTable.definitions]
      exact .nil
  | c :: rest, _, .cons h hs => by
      rw [CommonTable.definitions, CommonTable.definitions]
      exact .cons (CommonTable.Alike.definition d c h) (CommonTable.Alike.definitions d rest hs)
termination_by structural cs => cs

theorem Join.Alike.source (d : Dialect) :
    ∀ (j : Join) {j' : Join}, j.Alike R j' → Source.Alike R (j.source d) (j'.source d)
  | ⟨_, t, ps⟩, _, .mk kind table conditions => by
      have hs := Table.Alike.source d t table
      have hps := Predicate.Alike.toConditions d [] ps conditions
      rw [Join.source, Join.source, forall₂_isEmpty_eq conditions]
      refine ⟨Fragment.Alike.append (((Fragment.Alike.text _).append (.text " ")).append
        hs.reference) ?_, hs.definitions⟩
      exact .ite _ .nil ((Fragment.Alike.text " ON ").append (Condition.Alike.group _ _ hps).render)
termination_by structural j => j

theorem Join.Alike.sources (d : Dialect) :
    ∀ (js : List Join) {js' : List Join}, List.Forall₂ (Join.Alike R) js js' →
      List.Forall₂ (Source.Alike R) (Join.sources d js) (Join.sources d js')
  | [], _, .nil => by
      rw [Join.sources]
      exact .nil
  | j :: rest, _, .cons h hs => by
      rw [Join.sources, Join.sources]
      exact .cons (Join.Alike.source d j h) (Join.Alike.sources d rest hs)
termination_by structural js => js

theorem Select.Alike.compound (d : Dialect) :
    ∀ (s : Select) {s' : Select}, s.Alike R s' → Compound.Alike R (s.compound d) (s'.compound d)
  | { dialect := _, asName := _, ctes, distinct, distinctOn, fields, source, joins, conditions,
      groupBy, having, orderBy, limit, offset, members },
    { dialect := _, asName := _, ctes := _, distinct := _, distinctOn := _, fields := _,
      source := _, joins := _, conditions := _, groupBy := _, having := _, orderBy := _,
      limit := _, offset := _, members := _ },
    .mk _ _ hctes hdistinct hdistinctOn hfields hsource hjoins hconditions hgroupBy hhaving
      horderBy hlimit hoffset hmembers => by
      have hctes := CommonTable.Alike.definitions d ctes hctes
      have hsource := Table.Alike.source? d source hsource
      have hjoins := Join.Alike.sources d joins hjoins
      have hselectList := Fragment.Alike.selectList (Field.Alike.asNames_eq hfields)
        (Field.Alike.renderAll d [] fields hfields)
      have hwhere := Condition.Alike.clause "WHERE"
        (Predicate.Alike.toConditions d [] conditions hconditions)
      have hgroupBy := Fragment.Alike.listClause " GROUP BY "
        (Field.Alike.renderAll d [] groupBy hgroupBy)
      have hhaving := Condition.Alike.clause "HAVING"
        (Predicate.Alike.toConditions d [] having hhaving)
      have horderBy := Fragment.Alike.listClause " ORDER BY "
        (Field.Alike.renderAll d [] orderBy horderBy)
      have hmembers := Member.Alike.compounds d members hmembers
      have hdistinctOnEmpty := forall₂_isEmpty_eq hdistinctOn
      have hdistinctOn := Fragment.Alike.separated ", "
        (Field.Alike.renderAll d [] distinctOn hdistinctOn)
      cases hdistinct
      rw [Select.compound, Select.compound, hdistinctOnEmpty]
      refine Compound.Alike.node hctes (Source.Alike.referenced hsource hjoins) ?_ ?_ hmembers
      · refine (((((((Fragment.Alike.text "SELECT ").append ?_).append hselectList).append
          (Source.Alike.clause " FROM " hsource)).append (Source.Alike.joins hjoins)).append
          hwhere).append hgroupBy).append hhaving
        exact .ite _ (((Fragment.Alike.text _).append hdistinctOn).append (.text _))
          (.ite _ (.text _) .nil)
      · exact (horderBy.append (.numberClause " LIMIT " hlimit)).append
          (.numberClause " OFFSET " hoffset)
termination_by structural s => s

theorem Member.Alike.compounds (d : Dialect) :
    ∀ (ms : List Member) {ms' : List Member}, List.Forall₂ (Member.Alike R) ms ms' →
      Compound.Alike.All R (Member.compounds d ms) (Member.compounds d ms')
  | [], _, .nil => by
      rw [Member.compounds]
      exact .nil
  | ⟨_, s⟩ :: rest, _, .cons (.mk operator query) hs => by
      rw [Member.compounds, Member.compounds]
      exact .cons ⟨rfl, Select.Alike.compound d s query⟩ (Member.Alike.compounds d rest hs)
termination_by structural ms => ms

theorem Select.Alike.render? (d : Dialect) :
    ∀ (s : Option Select) {s' : Option Select}, Option.Rel (Select.Alike R) s s' →
      Fragment.Alike R (Select.render? d s) (Select.render? d s')
  | none, _, .none => by
      rw [Select.render?]
      exact .nil
  | some s, _, .some h => by
      rw [Select.render?, Select.render?]
      exact (Select.Alike.compound d s h).render
termination_by structural s => s

theorem Conflict.Alike.render? (d : Dialect) (excluded : List String)
    {resolution resolution' : Fragment} (hresolution : resolution.Alike R resolution') :
    ∀ (c : Option Conflict) {c' : Option Conflict}, Option.Rel (Conflict.Alike R) c c' →
      Fragment.Alike R (Conflict.render? d excluded resolution c)
        (Conflict.render? d excluded resolution' c')
  | none, _, .none => by
      rw [Conflict.render?, Conflict.render?]
      exact .nil
  | some ⟨fields, constraint, conditions, none⟩, some ⟨_, _, _, none⟩,
    .some (.mk hfields hconstraint hconditions .none) => by
      have htarget := Fragment.Alike.conflictTarget constraint (forall₂_isEmpty_eq hfields)
        (Field.Alike.renderAll d excluded fields hfields)
      have hwhere := Condition.Alike.clause "WHERE"
        (Predicate.Alike.toConditions d [] conditions hconditions)
      cases hconstraint
      rw [Conflict.render?, Conflict.render?]
      exact (((Fragment.Alike.text _).append htarget).append hwhere).append (.text _)
  | some ⟨fields, constraint, conditions, some set⟩, some ⟨_, _, _, some _⟩,
    .some (.mk hfields hconstraint hconditions (.some hset)) => by
      have htarget := Fragment.Alike.conflictTarget constraint (forall₂_isEmpty_eq hfields)
        (Field.Alike.renderAll d excluded fields hfields)
      have hwhere := Condition.Alike.clause "WHERE"
        (Predicate.Alike.toConditions d [] conditions hconditions)
      have hset := Fragment.Alike.separated ", " (Assignment.Alike.renderAll d excluded set hset)
      cases hconstraint
      rw [Conflict.render?, Conflict.render?]
      exact (((Fragment.Alike.text _).append htarget).append hwhere).append
        (((Fragment.Alike.text _).append hset).append hresolution)
termination_by structural c => c

theorem Insert.Alike.render (d : Dialect) : ∀ (s : Insert) {s' : Insert}, s.Alike R s' →
    Fragment.Alike R (s.render d) (s'.render d)
  | { dialect := _, asName := _, ctes, ignore, target, columns, rows, source, conflict,
      resolution, onDuplicate, returning },
    { dialect := _, asName := _, ctes := _, ignore := _, target := _, columns := _, rows := _,
      source := _, conflict := _, resolution := _, onDuplicate := _, returning := _ },
    .mk _ _ hctes hignore htarget hcolumns hrows hsource hconflict hresolution honDuplicate
      hreturning => by
      have hctes := Definition.Alike.clause (CommonTable.Alike.definitions d ctes hctes)
      have hcolumnsEmpty := forall₂_isEmpty_eq hcolumns
      have hcolumns := Fragment.Alike.parenthesized (Fragment.Alike.separated ", "
        (Field.Alike.renderAll d [target.qualifier] columns hcolumns))
      have hrowsEmpty := forall₂_isEmpty_eq hrows
      have hrows := Fragment.Alike.separated ", " (Arg.Alike.renderRows d rows hrows)
      have hsourceSome := rel_isSome_eq hsource
      have hsource := Select.Alike.render? d source hsource
      have hconflict := Conflict.Alike.render? d [target.qualifier] (Condition.Alike.clause "WHERE"
        (Predicate.Alike.toConditions d [] resolution hresolution)) conflict hconflict
      have honDuplicate := Fragment.Alike.listClause " ON DUPLICATE KEY UPDATE "
        (Assignment.Alike.renderAll d [target.qualifier] onDuplicate honDuplicate)
      have hreturning := Fragment.Alike.returningClause (Field.Alike.asNames_eq hreturning)
        (Field.Alike.renderAll d [] returning hreturning)
      cases hignore
      cases htarget
      rw [Insert.render, Insert.render, hcolumnsEmpty, hrowsEmpty, hsourceSome]
      refine ((((((hctes.append (.text _)).append (.insertTarget d _)).append ?_).append ?_).append
        hconflict).append honDuplicate).append hreturning
      · exact .ite _ .nil ((Fragment.Alike.text _).append hcolumns)
      · exact .ite _ ((Fragment.Alike.text _).append hrows)
          (.ite _ ((Fragment.Alike.text _).append hsource) .nil)
termination_by structural s => s

theorem Update.Alike.render (d : Dialect) : ∀ (s : Update) {s' : Update}, s.Alike R s' →
    Fragment.Alike R (s.render d) (s'.render d)
  | { dialect := _, asName := _, ctes, target, assignments, source, joins, conditions, orderBy,
      limit, returning },
    { dialect := _, asName := _, ctes := _, target := _, assignments := _, source := _, joins := _,
      conditions := _, orderBy := _, limit := _, returning := _ },
    .mk _ _ hctes htarget hassignments hsource hjoins hconditions horderBy hlimit hreturning => by
      have hctes := CommonTable.Alike.definitions d ctes hctes
      have hassignments (excluded : List String) := Fragment.Alike.listClause " SET "
        (Assignment.Alike.renderAll d excluded assignments hassignments)
      have hsource := Table.Alike.source? d source hsource
      have hjoins := Join.Alike.sources d joins hjoins
      have hwhere := Condition.Alike.clause "WHERE"
        (Predicate.Alike.toConditions d [] conditions hconditions)
      have horderBy := Fragment.Alike.listClause " ORDER BY "
        (Field.Alike.renderAll d [] orderBy horderBy)
      have hreturning := Fragment.Alike.returningClause (Field.Alike.asNames_eq hreturning)
        (Field.Alike.renderAll d [] returning hreturning)
      cases htarget
      rw [Update.render, Update.render, forall₂_isEmpty_eq hjoins]
      refine ((((((((Source.Alike.withClause hctes hsource hjoins).append (.text _)).append
        (.target _)).append ?_).append (hassignments _)).append ?_).append hwhere).append
        horderBy).append (.numberClause " LIMIT " hlimit) |>.append hreturning
      · exact .ite _ (Source.Alike.joins hjoins) .nil
      · have hfrom := Source.Alike.clause " FROM " hsource
        exact .ite _ (hfrom.append (Source.Alike.joins hjoins)) .nil
termination_by structural s => s

theorem Delete.Alike.render (d : Dialect) : ∀ (s : Delete) {s' : Delete}, s.Alike R s' →
    Fragment.Alike R (s.render d) (s'.render d)
  | { dialect := _, asName := _, ctes, targets, source, joins, conditions, orderBy, limit,
      returning },
    { dialect := _, asName := _, ctes := _, targets := _, source := _, joins := _,
      conditions := _, orderBy := _, limit := _, returning := _ },
    .mk _ _ hctes htargets hsource hjoins hconditions horderBy hlimit hreturning => by
      have hctes := CommonTable.Alike.definitions d ctes hctes
      have hsource := Table.Alike.source? d source hsource
      have hjoins := Join.Alike.sources d joins hjoins
      have hwhere := Condition.Alike.clause "WHERE"
        (Predicate.Alike.toConditions d [] conditions hconditions)
      have horderBy := Fragment.Alike.listClause " ORDER BY "
        (Field.Alike.renderAll d [] orderBy horderBy)
      have hreturning := Fragment.Alike.returningClause (Field.Alike.asNames_eq hreturning)
        (Field.Alike.renderAll d [] returning hreturning)
      cases htargets
      rw [Delete.render, Delete.render, rel_isSome_eq hsource]
      exact ((((((((Source.Alike.withClause hctes hsource hjoins).append (.text _)).append
        (.deleteTargets d _ _)).append (Source.Alike.clause " USING " hsource)).append
        (Source.Alike.joins hjoins)).append hwhere).append horderBy).append
        (.numberClause " LIMIT " hlimit)).append hreturning
termination_by structural s => s

/-- Statements with related values at the same places are rendered alike in any dialect. -/
theorem Query.Alike.render (d : Dialect) : ∀ (q : Query) {q' : Query}, q.Alike R q' →
    Fragment.Alike R (q.render d) (q'.render d)
  | .select s, _, .select h => by
      rw [Query.render, Query.render]
      exact (Select.Alike.compound d s h).render
  | .insert s, _, .insert h => by
      rw [Query.render, Query.render]
      exact Insert.Alike.render d s h
  | .update s, _, .update h => by
      rw [Query.render, Query.render]
      exact Update.Alike.render d s h
  | .delete s, _, .delete h => by
      rw [Query.render, Query.render]
      exact Delete.Alike.render d s h
termination_by structural q => q

end

/-- Compiling two statements that are alike gives the same text, and arguments related position by
position; so does writing them behind whatever a writer of any dialect holds. -/
theorem bound_contents_stay_out_of_text {q q' : Query} (h : q.Alike R q') :
    q.compile.sql = q'.compile.sql ∧
      q.compile.args.length = q'.compile.args.length ∧
      List.Forall₂ R q.compile.args q'.compile.args ∧
      ∀ (d : Dialect) (sql : String) (args : List Value),
        (q.emit.run ⟨d, sql, args⟩).2.sql = (q'.emit.run ⟨d, sql, args⟩).2.sql ∧
          ∃ added added' : List Value, List.Forall₂ R added added' ∧
            (q.emit.run ⟨d, sql, args⟩).2.args = args ++ added ∧
            (q'.emit.run ⟨d, sql, args⟩).2.args = args ++ added' := by
  have hrender (d : Dialect) := Query.Alike.render d q h
  have hargs := (hrender q.dialect).args
  refine ⟨?_, ?_, ?_, fun d sql args => ⟨?_, _, _, (hrender d).args, ?_, ?_⟩⟩
  · rw [q.compile_eq, q'.compile_eq, ← h.dialect_eq]
    exact (hrender q.dialect).placed_eq q.dialect 0
  · rw [q.compile_eq, q'.compile_eq, ← h.dialect_eq]
    exact hargs.length_eq
  · rw [q.compile_eq, q'.compile_eq, ← h.dialect_eq]
    exact hargs
  · rw [q.emits d _ rfl, q'.emits d _ rfl, Writer.write_eq, Writer.write_eq,
      (hrender d).placed_eq]
  · rw [q.emits d _ rfl, Writer.write_eq]
  · rw [q'.emits d _ rfl, Writer.write_eq]

/-- The first `limit` identifiers of the users called `name`, in a subquery of their orders. -/
def ordersOf (name : String) (limit : Int64) : Query :=
  let users : Select :=
    { dialect := .postgres, asName := "", fields := [.plain (.column "u" "id") {}],
      source := some (.base ⟨"", "users", "u"⟩),
      conditions := [.template false "? = ?"
        [.field (.plain (.column "u" "name") {}), .value (.text name)] ""],
      limit := some limit }
  .delete
    { dialect := .postgres, asName := "", targets := [⟨"", "orders", ""⟩],
      conditions := [.template false "? IN ?"
        [.field (.plain (.column "orders" "user") {}), .query (.select users)] ""] }

/-- A name that looks like SQL stays an argument. -/
theorem injected_name_stays_out_of_text :
    let R : Value → Value → Prop := fun v v' =>
      (v = .text "ann" ∧ v' = .text "' OR TRUE --") ∨ (v = .int 1 ∧ v' = .int 100)
    (ordersOf "ann" 1).Alike R (ordersOf "' OR TRUE --" 100) ∧
      (ordersOf "ann" 1).compile.sql = (ordersOf "' OR TRUE --" 100).compile.sql ∧
      List.Forall₂ R (ordersOf "ann" 1).compile.args
        (ordersOf "' OR TRUE --" 100).compile.args := by
  intro R
  have column (qualifier name : String) :
      Arg.Alike R (.field (.plain (.column qualifier name) {}))
        (.field (.plain (.column qualifier name) {})) :=
    .field (.plain _ (.column _ _))
  have hname : Predicate.Alike R (.template false "? = ?"
      [.field (.plain (.column "u" "name") {}), .value (.text "ann")] "")
      (.template false "? = ?"
        [.field (.plain (.column "u" "name") {}), .value (.text "' OR TRUE --")] "") :=
    .template _ _ _ (.cons (column _ _) (.cons (.value (.inl ⟨rfl, rfl⟩)) .nil))
  have h : (ordersOf "ann" 1).Alike R (ordersOf "' OR TRUE --" 100) :=
    .delete (.mk rfl rfl .nil rfl .none .nil
      (.cons (.template _ _ _ (.cons (column _ _) (.cons
        (.query (.select (.mk rfl rfl .nil rfl .nil (.cons (.plain _ (.column _ _)) .nil)
          (.some (.base _)) .nil (.cons hname .nil) .nil .nil .nil
          (.some (.inr ⟨rfl, rfl⟩)) .none .nil))) .nil))) .nil) .nil .none .nil)
  have hsame := bound_contents_stay_out_of_text h
  exact ⟨h, hsame.1, hsame.2.2.1⟩

end BoundSql.Sql
