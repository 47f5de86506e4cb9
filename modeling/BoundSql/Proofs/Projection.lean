import BoundSql.Proofs.Emission
import BoundSql.Run.Statement

/-!
# Projecting a query

A query with other fields in its select list or its RETURNING clause is the same text and the same
bound values around these fields, whatever was selected before.
-/
namespace BoundSql.Run

open Sql

/-- The fields of a select list or a RETURNING clause, each with its name after AS. -/
def projection (d : Dialect) (fs : List Field) : Fragment :=
  Fragment.separated ", " (selected fs (Field.renderAll d [] fs))

/-- A rendering that depends on a list of fields in one place only, where it lists them. -/
def Framed (d : Dialect) (render : List Field → Fragment) : Prop :=
  ∃ before after : Fragment, ∀ fs : List Field, fs ≠ [] →
    render fs = before ++ projection d fs ++ after

/-- Without fields there is no RETURNING clause. -/
theorem returningClause_eq (d : Dialect) (fs : List Field) :
    Sql.returningClause fs (Field.renderAll d [] fs) =
      if fs.isEmpty then [] else Fragment.text " RETURNING " ++ projection d fs := by
  cases fs with
  | nil => rfl
  | cons f fs =>
      rw [Sql.returningClause, listClause, projection, Field.renderAll, if_neg (by simp [selected]),
        List.isEmpty_cons, if_neg (by decide)]

namespace Framed

variable {d : Dialect} {render : List Field → Fragment}

theorem append_left (f : Fragment) (h : Framed d render) : Framed d fun fs => f ++ render fs := by
  obtain ⟨before, after, h⟩ := h
  refine ⟨f ++ before, after, fun fs hfs => ?_⟩
  simp only [h fs hfs, List.append_assoc]

theorem append_right (f : Fragment) (h : Framed d render) : Framed d fun fs => render fs ++ f := by
  obtain ⟨before, after, h⟩ := h
  refine ⟨before, after ++ f, fun fs hfs => ?_⟩
  simp only [h fs hfs, List.append_assoc]

theorem selectList : Framed d fun fs => Sql.selectList fs (Field.renderAll d [] fs) := by
  refine ⟨[], [], fun fs hfs => ?_⟩
  change Sql.selectList fs _ = _
  rw [Sql.selectList, if_neg (by simpa using hfs), List.nil_append, List.append_nil, projection]

theorem returningClause :
    Framed d fun fs => Sql.returningClause fs (Field.renderAll d [] fs) := by
  refine ⟨Fragment.text " RETURNING ", [], fun fs hfs => ?_⟩
  change Sql.returningClause fs _ = _
  rw [returningClause_eq, if_neg (by simpa using hfs), List.append_nil]

end Framed

/-- The core of a select holds its list, between what is distinct and the other clauses. -/
theorem core_compound (d : Dialect) (s : Select) : ∃ distinct clauses : Fragment,
    ∀ fs : List Field, (Select.compound d { s with fields := fs }).core =
      Fragment.text "SELECT " ++ distinct ++ Sql.selectList fs (Field.renderAll d [] fs) ++
        clauses := by
  cases s
  simp only [Select.compound, Compound.core, List.append_assoc]
  exact ⟨_, _, fun _ => rfl⟩

/-- Everything else of a select does not depend on its list. -/
theorem compound_fields (d : Dialect) (s : Select) (fs : List Field) :
    (Select.compound d { s with fields := fs }).definitions = (s.compound d).definitions ∧
      (Select.compound d { s with fields := fs }).members = (s.compound d).members ∧
      (Select.compound d { s with fields := fs }).tail = (s.compound d).tail := by
  cases s
  simp only [Select.compound, Compound.definitions, Compound.referenced, Compound.members,
    Compound.tail, and_self]

/-- Around its select list a select keeps the WITH clause, all other clauses and the members. -/
theorem render_project_select (d : Dialect) (s : Select) : ∃ distinct clauses : Fragment,
    ∀ fs : List Field, (project (.select s) fs).render d =
      Definition.clause (s.compound d).definitions ++ Fragment.text "SELECT " ++ distinct ++
        Sql.selectList fs (Field.renderAll d [] fs) ++
        (clauses ++ Compound.bodyAll (s.compound d).members ++ (s.compound d).tail) := by
  obtain ⟨distinct, clauses, hcore⟩ := core_compound d s
  refine ⟨distinct, clauses, fun fs => ?_⟩
  obtain ⟨hdefinitions, hmembers, htail⟩ := compound_fields d s fs
  rw [project, Query.render, Compound.render, Compound.body_eq, hcore, hdefinitions, hmembers,
    htail]
  simp only [List.append_assoc]

/-- In front of its RETURNING clause a change is the same. -/
theorem render_project_change (d : Dialect) (c : Change) : ∃ before : Fragment,
    ∀ fs : List Field, (project c.toQuery fs).render d =
      before ++ Sql.returningClause fs (Field.renderAll d [] fs) := by
  cases c with
  | insert s =>
      obtain ⟨_, _, ctes, ignore, target, columns, rows, source, conflict, resolution,
        onDuplicate, _⟩ := s
      simp only [project, Change.toQuery, Query.render, Insert.render]
      exact ⟨_, fun _ => rfl⟩
  | update s =>
      obtain ⟨_, _, ctes, target, assignments, source, joins, conditions, orderBy, limit, _⟩ := s
      simp only [project, Change.toQuery, Query.render, Update.render]
      exact ⟨_, fun _ => rfl⟩
  | delete s =>
      obtain ⟨_, _, ctes, targets, source, joins, conditions, orderBy, limit, _⟩ := s
      simp only [project, Change.toQuery, Query.render, Delete.render]
      exact ⟨_, fun _ => rfl⟩

/-- The query around a projection. -/
theorem project_framed (d : Dialect) (q : Query) :
    Framed d fun fs => (project q fs).render d := by
  have hchange (c : Change) : Framed d fun fs => (project c.toQuery fs).render d := by
    obtain ⟨before, h⟩ := render_project_change d c
    simp only [h]
    exact .append_left _ .returningClause
  cases q with
  | select s =>
      obtain ⟨distinct, clauses, h⟩ := render_project_select d s
      simp only [h]
      exact .append_right _ (.append_left _ .selectList)
  | insert s => exact hchange (.insert s)
  | update s => exact hchange (.update s)
  | delete s => exact hchange (.delete s)

theorem project_project (q : Query) (gs fs : List Field) :
    project (project q gs) fs = project q fs := by
  cases q <;> rfl

theorem project_dialect (q : Query) (fs : List Field) : (project q fs).dialect = q.dialect := by
  cases q <;> rfl

/-- Into any writer the emission writes the three fragments one behind the other. The placeholders
of each are numbered on behind the arguments of the writer and of the fragments in front. -/
def Writes (d : Dialect) (e : Emission) (before list after : Fragment) : Prop :=
  ∀ (sql : String) (args : List Value),
    (e.run ⟨d, sql, args⟩).2 =
      ⟨d,
        sql ++ before.placed d args.length ++
          list.placed d (args.length + before.args.length) ++
          after.placed d (args.length + before.args.length + list.args.length),
        args ++ before.args ++ list.args ++ after.args⟩

theorem Writes.of_emits {d : Dialect} {e : Emission} {before list after : Fragment}
    (h : Emits d e (before ++ list ++ after)) : Writes d e before list after := by
  intro sql args
  rw [h _ rfl, Writer.write_eq]
  simp only [Fragment.placed_append, Fragment.args_append, List.length_append, ← Nat.add_assoc,
    ← String.append_assoc, ← List.append_assoc]

/-- Other fields change nothing but the select list of a select and the RETURNING clause of a
change, whatever these have been. In front of the list stay the WITH clause and what is distinct,
behind it the clauses, the members of set operations and the tail, with all their bound values. -/
theorem projecting_changes_only_the_projection (d : Dialect) :
    (∀ s : Select, ∃ before after distinct clauses : Fragment,
      before = Definition.clause (s.compound d).definitions ++ Fragment.text "SELECT " ++ distinct ∧
      after = clauses ++ Compound.bodyAll (s.compound d).members ++ (s.compound d).tail ∧
      ∀ old fs : List Field,
        Writes d (project (project (.select s) old) fs).emit before
          (if fs.isEmpty then Fragment.text "NULL" else projection d fs) after) ∧
    ∀ c : Change, ∃ before : Fragment, ∀ old fs : List Field,
      Writes d (project (project c.toQuery old) fs).emit before
        (if fs.isEmpty then [] else Fragment.text " RETURNING " ++ projection d fs) [] := by
  constructor
  · intro s
    obtain ⟨distinct, clauses, h⟩ := render_project_select d s
    refine ⟨_, _, distinct, clauses, rfl, rfl, fun old fs => ?_⟩
    have hemits := (project (.select s) fs).emits d
    rw [h] at hemits
    rw [project_project]
    exact .of_emits hemits
  · intro c
    obtain ⟨before, h⟩ := render_project_change d c
    refine ⟨before, fun old fs => ?_⟩
    have hemits := (project c.toQuery fs).emits d
    rw [h, returningClause_eq] at hemits
    rw [project_project]
    exact .of_emits (by rwa [List.append_nil])

end BoundSql.Run
