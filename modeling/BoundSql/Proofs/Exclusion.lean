import BoundSql.Proofs.Emission

/-!
# Excluded qualifiers

An expression that is written without some qualifiers is written like the same expression with these
qualifiers taken off its columns, in templates and groups at any depth. Subqueries and the values of
assignments keep theirs, and no value is bound in another place.
-/
namespace BoundSql.Sql

open Fragment (args)

/-- A column without its qualifier, if that is an excluded one. -/
def Term.strip (excluded : List String) : Term → Term
  | .literal v => .literal v
  | .column qualifier name =>
      .column (if excluded.contains qualifier then "" else qualifier) name

mutual

/-- The columns of a subquery keep their qualifiers. -/
def Arg.strip (excluded : List String) : Arg → Arg
  | .value v => .value v
  | .field f => .field (f.strip excluded)
  | .query q => .query q
  | .list vs => .list vs

def Arg.stripAll (excluded : List String) : List Arg → List Arg
  | [] => []
  | a :: rest => a.strip excluded :: Arg.stripAll excluded rest

/-- The same field without the qualifiers that are to be left out. -/
def Field.strip (excluded : List String) : Field → Field
  | .plain term marks => .plain (term.strip excluded) marks
  | .derived template args marks => .derived template (Arg.stripAll excluded args) marks
  | .verbatim sql => .verbatim sql
  | .condition p => .condition (p.strip excluded)

/-- Qualifiers are dropped at every depth of a predicate, subqueries excepted. -/
def Predicate.strip (excluded : List String) : Predicate → Predicate
  | .template negated template args asName =>
      .template negated template (Arg.stripAll excluded args) asName
  | .group negated connective members asName =>
      .group negated connective (Predicate.stripAll excluded members) asName
  | .flag negated term marks => .flag negated (term.strip excluded) marks

def Predicate.stripAll (excluded : List String) : List Predicate → List Predicate
  | [] => []
  | p :: rest => p.strip excluded :: Predicate.stripAll excluded rest

end

/-- The value keeps its qualifiers. -/
def Assignment.strip (excluded : List String) : Assignment → Assignment
  | ⟨target, value⟩ => ⟨target.strip excluded, value⟩

/-- Tables, common tables and queries are written without exclusions. -/
def Node.strip (excluded : List String) : Node → Node
  | .arg a => .arg (a.strip excluded)
  | .field f => .field (f.strip excluded)
  | .predicate p => .predicate (p.strip excluded)
  | .fields fs => .fields (fs.map (·.strip excluded))
  | .selectList fs => .selectList (fs.map (·.strip excluded))
  | .assignments set => .assignments (set.map (·.strip excluded))
  | .table t => .table t
  | .joins js => .joins js
  | .commonTables cs => .commonTables cs
  | .query q => .query q

section Written

variable (excluded : List String)

/-- Leaving a qualifier out and not having it are written alike. -/
theorem Term.emit_strip (t : Term) : (t.strip excluded).emit [] = t.emit excluded := by
  cases t with
  | literal v => rfl
  | column qualifier name =>
      by_cases h : qualifier ∈ excluded <;> simp [strip, emit, h, Emission.skipIf]

mutual

/-- By induction on the tree: a subquery never leaves out qualifiers, so it is not touched. -/
theorem Arg.emit_strip : ∀ a : Arg, (a.strip excluded).emit [] = a.emit excluded
  | .value v => by rw [Arg.strip, Arg.emit, Arg.emit]
  | .field f => by rw [Arg.strip, Arg.emit, Arg.emit, Field.emit_strip f]
  | .query q => by rw [Arg.strip, Arg.emit, Arg.emit]
  | .list vs => by rw [Arg.strip, Arg.emit, Arg.emit]

theorem Arg.emitAll_strip : ∀ as : List Arg,
    Arg.emitAll [] (Arg.stripAll excluded as) = Arg.emitAll excluded as
  | [] => by rw [Arg.stripAll, Arg.emitAll, Arg.emitAll]
  | a :: rest => by
      rw [Arg.stripAll, Arg.emitAll, Arg.emitAll, Arg.emit_strip a, Arg.emitAll_strip rest]

theorem Field.emit_strip : ∀ f : Field, (f.strip excluded).emit [] = f.emit excluded
  | .plain term marks => by
      rw [Field.strip, Field.emit, Field.emit, Term.emit_strip excluded term]
  | .derived template args marks => by
      rw [Field.strip, Field.emit, Field.emit, Arg.emitAll_strip args]
  | .verbatim sql => by rw [Field.strip, Field.emit, Field.emit]
  | .condition p => by rw [Field.strip, Field.emit, Field.emit, Predicate.emit_strip p]

theorem Predicate.emit_strip : ∀ p : Predicate, (p.strip excluded).emit [] = p.emit excluded
  | .template negated template args asName => by
      rw [Predicate.strip, Predicate.emit, Predicate.emit, Arg.emitAll_strip args]
  | .group negated connective members asName => by
      rw [Predicate.strip, Predicate.emit, Predicate.emit, Predicate.emitAll_strip members]
  | .flag negated term marks => by
      rw [Predicate.strip, Predicate.emit, Predicate.emit, Term.emit_strip excluded term]

theorem Predicate.emitAll_strip : ∀ ps : List Predicate,
    Predicate.emitAll [] (Predicate.stripAll excluded ps) = Predicate.emitAll excluded ps
  | [] => by rw [Predicate.stripAll, Predicate.emitAll, Predicate.emitAll]
  | p :: rest => by
      rw [Predicate.stripAll, Predicate.emitAll, Predicate.emitAll, Predicate.emit_strip p,
        Predicate.emitAll_strip rest]

end

theorem Field.emitAll_strip (fs : List Field) :
    Field.emitAll [] (fs.map (·.strip excluded)) = Field.emitAll excluded fs := by
  induction fs with
  | nil => rw [List.map_nil, Field.emitAll, Field.emitAll]
  | cons f fs ih => rw [List.map_cons, Field.emitAll, Field.emitAll, Field.emit_strip, ih]

theorem Predicate.asName_strip (p : Predicate) : (p.strip excluded).asName = p.asName := by
  cases p <;> rw [Predicate.strip] <;> rfl

theorem Field.asName_strip (f : Field) : (f.strip excluded).asName = f.asName := by
  cases f with
  | condition p =>
      rw [Field.strip]
      exact p.asName_strip excluded
  | plain | derived | verbatim => simp only [Field.strip, Field.asName]

/-- Only the target of an assignment is stripped. -/
theorem Assignment.emit_strip (a : Assignment) : (a.strip excluded).emit [] = a.emit excluded := by
  obtain ⟨target, value⟩ := a
  rw [Assignment.strip, Assignment.emit, Assignment.emit, Field.emit_strip]

theorem Assignment.emitAll_strip (set : List Assignment) :
    Assignment.emitAll [] (set.map (·.strip excluded)) = Assignment.emitAll excluded set := by
  induction set with
  | nil => rw [List.map_nil, Assignment.emitAll, Assignment.emitAll]
  | cons a set ih =>
      rw [List.map_cons, Assignment.emitAll, Assignment.emitAll, Assignment.emit_strip, ih]

/-- Whatever is written on its own is written as its stripped copy. -/
theorem Node.emit_strip (n : Node) : (n.strip excluded).emit [] = n.emit excluded := by
  cases n with
  | arg a => exact Arg.emit_strip excluded a
  | field f => exact Field.emit_strip excluded f
  | predicate p => exact Predicate.emit_strip excluded p
  | fields fs => rw [strip, emit, emit, Field.emitAll_strip]
  | selectList fs =>
      simp only [strip, emit, Emission.selected, Field.emitAll_strip, List.zipWith_map_left,
        Field.asName_strip]
  | assignments set => rw [strip, emit, emit, Assignment.emitAll_strip]
  | table | joins | commonTables | query => rfl

end Written

namespace Fragment

/-- Separators bind nothing. -/
theorem args_separated (separator : String) (fs : List Fragment) :
    (separated separator fs).args = (fs.map args).flatten := by
  induction fs using separated.induct with
  | case1 => rfl
  | case2 f => simp [separated]
  | case3 f rest hrest ih => simp [separated, ih, text, args]

end Fragment

/-- Fillings behind the last slot are not bound. -/
theorem Template.args_filled (ps : List Template.Part) (fs : List Fragment) :
    (Template.filled ps fs).args = ((fs.map args).take (ps.count .slot)).flatten := by
  induction ps, fs using Template.filled.induct with
  | case1 fs => simp [filled, args]
  | case2 c rest fs ih => simp [filled, args, ih]
  | case3 rest ih => simpa [filled, args] using ih
  | case4 rest f fs ih => simp [filled, ih]

theorem Condition.args_group (negated : Bool) (connective : Connective) (members : List Condition) :
    (Condition.group negated connective members).render.args =
      ((Condition.renderAll members).map args).flatten := by
  have hnegation : (negation negated).args = [] := by cases negated <;> rfl
  rw [render]
  generalize renderAll members = fs
  match fs with
  | [] => rfl
  | [f] => simp [hnegation]
  | f :: g :: fs =>
      simp [hnegation, Fragment.parenthesized, Fragment.text, args, Fragment.args_separated]

theorem args_selected (fs : List Field) (rendered : List Fragment) :
    (selected fs rendered).map args = (rendered.map args).take fs.length := by
  unfold selected
  induction fs generalizing rendered with
  | nil => rfl
  | cons f fs ih =>
      cases rendered with
      | nil => rfl
      | cons r rendered =>
          have hname : args (if f.asName.isEmpty then [] else Fragment.asName f.asName) = [] := by
            split <;> rfl
          rw [List.zipWith_cons_cons, List.map_cons, Fragment.args_append, hname, List.append_nil,
            ih, List.map_cons, List.length_cons, List.take_succ_cons]

section Bound

variable (d : Dialect) (excluded : List String)

/-- Qualifiers bind nothing, so leaving them out changes no argument. -/
theorem Term.args_render (t : Term) : (t.render excluded).args = (t.render []).args := by
  have howner (p : Prop) [Decidable p] (qualifier : String) :
      args (if p then [] else Fragment.ident qualifier ++ Fragment.text ".") = [] := by
    split <;> rfl
  cases t with
  | literal v => rfl
  | column qualifier name => simp only [render, Fragment.args_append, howner]

mutual

theorem Arg.args_render : ∀ a : Arg, (a.render d excluded).args = (a.render d []).args
  | .value v => by rw [Arg.render, Arg.render]
  | .field f => by rw [Arg.render, Arg.render, Field.args_render f]
  | .query q => by rw [Arg.render, Arg.render]
  | .list vs => by rw [Arg.render, Arg.render]

theorem Arg.args_renderAll : ∀ as : List Arg,
    (Arg.renderAll d excluded as).map args = (Arg.renderAll d [] as).map args
  | [] => by rw [Arg.renderAll, Arg.renderAll]
  | a :: rest => by
      rw [Arg.renderAll, Arg.renderAll, List.map_cons, List.map_cons, Arg.args_render a,
        Arg.args_renderAll rest]

/-- The same of a field, since templates keep their slots. -/
theorem Field.args_render : ∀ f : Field, (f.render d excluded).args = (f.render d []).args
  | .plain term marks => by
      rw [Field.render, Field.render, Fragment.args_append, Fragment.args_append,
        Term.args_render]
  | .derived template args marks => by
      simp only [Field.render, Fragment.args_append, Template.expanded, Template.args_filled,
        Arg.args_renderAll args]
  | .verbatim sql => by rw [Field.render, Field.render]
  | .condition p => by rw [Field.render, Field.render, Predicate.args_toCondition p]

theorem Predicate.args_toCondition : ∀ p : Predicate,
    (p.toCondition d excluded).render.args = (p.toCondition d []).render.args
  | .template negated template args asName => by
      simp only [Predicate.toCondition, Condition.render, Fragment.args_append, Template.expanded,
        Template.args_filled, Arg.args_renderAll args]
  | .group negated connective members asName => by
      rw [Predicate.toCondition, Predicate.toCondition, Condition.args_group,
        Condition.args_group, Predicate.args_toConditions members]
  | .flag negated term marks => by
      simp only [Predicate.toCondition, Condition.render, Fragment.args_append,
        Term.args_render excluded term]

theorem Predicate.args_toConditions : ∀ ps : List Predicate,
    (Condition.renderAll (Predicate.toConditions d excluded ps)).map args =
      (Condition.renderAll (Predicate.toConditions d [] ps)).map args
  | [] => by rw [Predicate.toConditions, Predicate.toConditions]
  | p :: rest => by
      rw [Predicate.toConditions, Predicate.toConditions, Condition.renderAll, Condition.renderAll,
        List.map_cons, List.map_cons, Predicate.args_toCondition p,
        Predicate.args_toConditions rest]

end

theorem Field.args_renderAll (fs : List Field) :
    (Field.renderAll d excluded fs).map args = (Field.renderAll d [] fs).map args := by
  induction fs with
  | nil => rw [Field.renderAll, Field.renderAll]
  | cons f fs ih =>
      rw [Field.renderAll, Field.renderAll, List.map_cons, List.map_cons, Field.args_render, ih]

theorem Assignment.args_renderAll (set : List Assignment) :
    (Assignment.renderAll d excluded set).map args = (Assignment.renderAll d [] set).map args := by
  induction set with
  | nil => rw [Assignment.renderAll, Assignment.renderAll]
  | cons a set ih =>
      obtain ⟨target, value⟩ := a
      simp only [Assignment.renderAll, Assignment.render, List.map_cons, Fragment.args_append,
        Field.args_render d excluded target, ih]

/-- Exclusions bind nothing else and nothing in another order. -/
theorem Node.args_render (n : Node) : (n.render d excluded).args = (n.render d []).args := by
  cases n with
  | arg a => exact Arg.args_render d excluded a
  | field f => exact Field.args_render d excluded f
  | predicate p => exact Predicate.args_toCondition d excluded p
  | fields fs =>
      rw [render, render, Fragment.args_separated, Fragment.args_separated, Field.args_renderAll]
  | selectList fs =>
      rw [render, render, Fragment.args_separated, Fragment.args_separated, args_selected,
        args_selected, Field.args_renderAll]
  | assignments set =>
      rw [render, render, Fragment.args_separated, Fragment.args_separated,
        Assignment.args_renderAll]
  | table | joins | commonTables | query => rfl

end Bound

/-- Whatever is written with exclusions is written as its copy without the excluded qualifiers is
written with none, into any writer, and binds the same arguments in the same order as without
exclusions. Of an assignment only the target is stripped. -/
theorem exclusion_strips_qualifiers (excluded : List String) :
    (∀ (n : Node) (w : Writer),
      (n.emit excluded).run w = ((n.strip excluded).emit []).run w ∧
      ((n.emit excluded).run w).2.args = ((n.emit []).run w).2.args) ∧
    ∀ (target : Field) (value : Arg) (w : Writer),
      (Assignment.emit excluded ⟨target, value⟩).run w =
        (do
          (target.strip excluded).emit []
          Emission.text " = "
          value.emit [] : Emission).run w := by
  refine ⟨fun n w => ⟨?_, ?_⟩, fun target value w => ?_⟩
  · rw [n.emit_strip]
  · rw [n.emits w.dialect excluded w rfl, n.emits w.dialect [] w rfl, Writer.write_eq,
      Writer.write_eq]
    exact congrArg (w.args ++ ·) (n.args_render w.dialect excluded)
  · rw [← Assignment.emit_strip, Assignment.strip, Assignment.emit]

end BoundSql.Sql
