import BoundSql.Run.Statement
import BoundSql.Sql.Clause
import BoundSql.Sql.Field
import Mathlib.Data.List.Perm.Basic

/-!
# The order of building

Steps on different clauses commute, whatever the statement holds. Two sequences of the same steps
that agree on the order within each clause therefore build the same statement: the first step of one
sequence can be moved to the front of the other, past steps on other clauses only.
-/
namespace BoundSql

section Rearranged

variable {γ κ σ : Type} [DecidableEq κ] {kind : γ → κ} {x : γ} {xs ys : List γ}

/-- The same steps, those of each kind in the same order. -/
def Rearranged (kind : γ → κ) (xs ys : List γ) : Prop :=
  ∀ k, xs.filter (kind · = k) = ys.filter (kind · = k)

/-- The first step stands in the other sequence behind steps of other kinds. -/
theorem Rearranged.split (h : Rearranged kind (x :: xs) ys) :
    ∃ before after, ys = before ++ x :: after ∧ (∀ y ∈ before, kind x ≠ kind y) ∧
      Rearranged kind xs (before ++ after) := by
  have hx : ys.filter (kind · = kind x) = x :: xs.filter (kind · = kind x) := by
    rw [← h, List.filter_cons_of_pos (by simp)]
  obtain ⟨before, after, rfl, hbefore, -, hafter⟩ := List.filter_eq_cons_iff.mp hx
  have hne : ∀ y ∈ before, kind x ≠ kind y := fun y hy heq => by
    simpa [heq] using hbefore y hy
  refine ⟨before, after, rfl, hne, fun k => ?_⟩
  by_cases hk : kind x = k
  · subst hk
    have hnone : before.filter (kind · = kind x) = [] :=
      List.filter_eq_nil_iff.mpr hbefore
    rw [List.filter_append, hnone, hafter, List.nil_append]
  · have hall := h k
    rwa [List.filter_cons_of_neg (by simpa using hk), List.filter_append,
      List.filter_cons_of_neg (by simpa using hk), ← List.filter_append] at hall

theorem Rearranged.eq_nil (h : Rearranged kind [] ys) : ys = [] := by
  cases ys with
  | nil => rfl
  | cons y ys => simpa using h (kind y)

theorem Rearranged.perm (h : Rearranged kind xs ys) : xs.Perm ys := by
  induction xs generalizing ys with
  | nil => rw [h.eq_nil]
  | cons x xs ih =>
      obtain ⟨before, after, rfl, -, h⟩ := h.split
      exact ((ih h).cons x).trans List.perm_middle.symm

/-- A step can be taken in front of steps that it commutes with. -/
theorem foldl_move_front {f : σ → γ → σ} {before : List γ}
    (hcomm : ∀ y ∈ before, ∀ s, f (f s x) y = f (f s y) x) (after : List γ) (s : σ) :
    (before ++ x :: after).foldl f s = (before ++ after).foldl f (f s x) := by
  induction before generalizing s with
  | nil => rfl
  | cons y before ih =>
      rw [List.forall_mem_cons] at hcomm
      calc (y :: before ++ x :: after).foldl f s
          = (before ++ x :: after).foldl f (f s y) := rfl
        _ = (before ++ after).foldl f (f (f s y) x) := ih hcomm.2 _
        _ = (y :: before ++ after).foldl f (f s x) := by rw [← hcomm.1]; rfl

/-- If steps of different kinds commute, the order of kinds does not matter. -/
theorem foldl_eq_of_rearranged {f : σ → γ → σ}
    (hcomm : ∀ x y, kind x ≠ kind y → ∀ s, f (f s x) y = f (f s y) x)
    (h : Rearranged kind xs ys) (s : σ) : xs.foldl f s = ys.foldl f s := by
  induction xs generalizing ys s with
  | nil => rw [h.eq_nil]
  | cons x xs ih =>
      obtain ⟨before, after, rfl, hne, h⟩ := h.split
      rw [foldl_move_front fun y hy => hcomm x y (hne y hy)]
      exact ih h (f s x)

end Rearranged

namespace Sql

theorem Select.apply_comm (x y : Select.Step) (h : x.clause ≠ y.clause) (q : Select) :
    (q.apply x).apply y = (q.apply y).apply x := by
  cases x <;> cases y <;> first | rfl | exact absurd rfl h

theorem Update.apply_comm (x y : Update.Step) (h : x.clause ≠ y.clause) (q : Update) :
    (q.apply x).apply y = (q.apply y).apply x := by
  cases x <;> cases y <;> first | rfl | exact absurd rfl h

theorem Delete.apply_comm (x y : Delete.Step) (h : x.clause ≠ y.clause) (q : Delete) :
    (q.apply x).apply y = (q.apply y).apply x := by
  cases x <;> cases y <;> first | rfl | exact absurd rfl h

namespace Insert

/-- The columns once these items are there: as long as there are none, an item declares its own. -/
def declared (columns : List Field) (items : List (List ColumnSetting)) : List Field :=
  items.foldl (fun columns item => if columns.isEmpty then item.map (·.column) else columns) columns

/-- Items only touch the columns and the rows, and of the statement they only read the columns. -/
theorem apply_items (items : List (List ColumnSetting)) (q : Insert) :
    q.apply (.items items) =
      { q with
        columns := declared q.columns items
        rows := q.rows ++ items.map (·.map (·.value)) } := by
  unfold apply
  induction items generalizing q with
  | nil => cases q; simp [declared]
  | cons item items ih => simp [ih, addItem, declared]

theorem apply_comm (x y : Insert.Step) (h : x.clause ≠ y.clause) (q : Insert) :
    (q.apply x).apply y = (q.apply y).apply x := by
  cases x <;> cases y <;> first
    | rfl
    | exact absurd rfl h
    | (rw [apply_items, apply_items]; rfl)

end Insert

end Sql

namespace Run

open Sql (Clause)

/-- What a step works on: a clause of the query, or the database or the logger that it runs with. -/
inductive Part where
  | clause (c : Clause)
  | database
  | logging
  deriving DecidableEq

def Step.part {γ : Type} (clause : γ → Clause) : Step γ → Part
  | .body step => .clause (clause step)
  | .database _ => .database
  | .logging _ => .logging

theorem Statement.applyWith_comm {β γ : Type} {apply : β → γ → β} {clause : γ → Clause}
    (hcomm : ∀ x y, clause x ≠ clause y → ∀ q, apply (apply q x) y = apply (apply q y) x)
    (x y : Step γ) (h : x.part clause ≠ y.part clause) (s : Statement β) :
    applyWith apply (applyWith apply s x) y = applyWith apply (applyWith apply s y) x := by
  cases x with
  | body x =>
      cases y with
      | body y =>
          have hne : clause x ≠ clause y := fun heq => h (congrArg Part.clause heq)
          simp only [applyWith, hcomm x y hne]
      | database | logging => rfl
  | database =>
      cases y with
      | database => exact absurd rfl h
      | body | logging => rfl
  | logging =>
      cases y with
      | logging => exact absurd rfl h
      | body | database => rfl

/-- Two sequences of the same steps, those on each clause in the same order, make of one statement
the same one, with the same query, database, logger and flags. -/
theorem clauses_commute :
    (∀ (s : Statement Sql.Select) (xs ys : List (Step Sql.Select.Step)),
      Rearranged (Step.part Sql.Select.Step.clause) xs ys →
        xs.foldl (Statement.applyWith Sql.Select.apply) s =
          ys.foldl (Statement.applyWith Sql.Select.apply) s) ∧
    (∀ (s : Statement Sql.Insert) (xs ys : List (Step Sql.Insert.Step)),
      Rearranged (Step.part Sql.Insert.Step.clause) xs ys →
        xs.foldl (Statement.applyWith Sql.Insert.apply) s =
          ys.foldl (Statement.applyWith Sql.Insert.apply) s) ∧
    (∀ (s : Statement Sql.Update) (xs ys : List (Step Sql.Update.Step)),
      Rearranged (Step.part Sql.Update.Step.clause) xs ys →
        xs.foldl (Statement.applyWith Sql.Update.apply) s =
          ys.foldl (Statement.applyWith Sql.Update.apply) s) ∧
    (∀ (s : Statement Sql.Delete) (xs ys : List (Step Sql.Delete.Step)),
      Rearranged (Step.part Sql.Delete.Step.clause) xs ys →
        xs.foldl (Statement.applyWith Sql.Delete.apply) s =
          ys.foldl (Statement.applyWith Sql.Delete.apply) s) :=
  ⟨fun s _ _ h => foldl_eq_of_rearranged (Statement.applyWith_comm Sql.Select.apply_comm) h s,
    fun s _ _ h => foldl_eq_of_rearranged (Statement.applyWith_comm Sql.Insert.apply_comm) h s,
    fun s _ _ h => foldl_eq_of_rearranged (Statement.applyWith_comm Sql.Update.apply_comm) h s,
    fun s _ _ h => foldl_eq_of_rearranged (Statement.applyWith_comm Sql.Delete.apply_comm) h s⟩

/-- Two items for a statement that also has a name after AS, a logger and a RETURNING clause. The
items come late, but behind the columns. -/
def itemsLate : List (Step Sql.Insert.Step) :=
  [.body (.named "new"), .body (.columns [.bare "id"]),
    .logging ⟨⟨fun _ => none⟩, { stats := true }⟩, .body (.returning [.bare "id"]),
    .body (.items [[⟨.bare "id", .value (.int 1)⟩], [⟨.bare "id", .value (.int 2)⟩]])]

def itemsEarly : List (Step Sql.Insert.Step) :=
  [.body (.columns [.bare "id"]), .body (.returning [.bare "id"]),
    .body (.items [[⟨.bare "id", .value (.int 1)⟩], [⟨.bare "id", .value (.int 2)⟩]]),
    .body (.named "new"), .logging ⟨⟨fun _ => none⟩, { stats := true }⟩]

theorem items_late_or_early :
    let build (steps : List (Step Sql.Insert.Step)) :=
      steps.foldl (Statement.applyWith Sql.Insert.apply)
        { body := .empty .mysql "" [] ⟨"", "users", ""⟩ false }
    itemsLate.Perm itemsEarly ∧
      Rearranged (Step.part Sql.Insert.Step.clause) itemsLate itemsEarly ∧
      build itemsLate = build itemsEarly := by
  intro build
  have h : Rearranged (Step.part Sql.Insert.Step.clause) itemsLate itemsEarly := by
    intro part
    cases part with
    | clause c => cases c <;> rfl
    | database => rfl
    | logging => rfl
  exact ⟨h.perm, h, clauses_commute.2.1 _ _ _ h⟩

end Run

end BoundSql
