import BoundSql.Proofs.Emission
import BoundSql.Sql.Predicate
import Mathlib.Logic.Function.Iterate

/-!
# Negation

Negating is its own inverse on predicates of every kind, so that of any number of negations only the
parity shows, wherever the predicate stands. One negation writes NOT in front of what the predicate
writes. Only the empty group has nothing that NOT could stand in front of, and writes nothing still.
The conjunction of a clause, which is written without parentheses, is no predicate and is not
negated.
-/
namespace BoundSql.Sql

/-- Run on this writer, the emission appends the text and the arguments, and nothing else. -/
def Appends (e : Emission) (w : Writer) (sql : String) (args : List Value) : Prop :=
  e.run w = ((), { w with sql := w.sql ++ sql, args := w.args ++ args })

namespace Appends

variable {e : Emission} {w : Writer} {sql sql' : String} {args args' : List Value}

theorem unique (h : Appends e w sql args) (h' : Appends e w sql' args') :
    sql = sql' ∧ args = args' := by
  have hwriter := (Prod.mk.inj (h.symm.trans h')).2
  obtain ⟨-, hsql, hargs⟩ := Writer.mk.inj hwriter
  exact ⟨(String.append_right_inj w.sql).mp hsql, List.append_cancel_left hargs⟩

theorem nothing : Appends (pure ()) w "" [] := by
  rw [Appends, String.append_empty, List.append_nil]
  rfl

theorem after_text {s : String} (h : Appends e (w.pushText s) sql args) :
    Appends (do Emission.text s; e) w (s ++ sql) args := by
  refine h.trans ?_
  simp only [Writer.pushText, String.append_assoc]

end Appends

namespace Predicate

theorem emit_appends (p : Predicate) (excluded : List String) (w : Writer) :
    Appends (p.emit excluded) w
      ((p.toCondition w.dialect excluded).render.placed w.dialect w.args.length)
      (p.toCondition w.dialect excluded).render.args := by
  have hwrites : ((p.emit excluded).run w).2 = w.write (p.toCondition w.dialect excluded).render :=
    (Node.predicate p).emits w.dialect excluded w rfl
  rw [Writer.write_eq] at hwrites
  exact Prod.ext rfl hwrites

def isNegated : Predicate → Bool
  | .template negated .. => negated
  | .group negated .. => negated
  | .flag negated .. => negated

@[simp] theorem asName_negate (p : Predicate) : p.negate.asName = p.asName := by
  cases p <;> rfl

/-- What is not an empty group is written behind NOT when it is negated. -/
theorem emit_negate {p : Predicate} (hnegated : p.isNegated = false)
    (hempty : ∀ c asName, p ≠ .group false c [] asName) (excluded : List String) :
    p.negate.emit excluded = (do
      Emission.text "NOT "
      p.emit excluded) := by
  cases p with
  | template negated format args asName =>
      obtain rfl : negated = false := hnegated
      rw [negate, emit, emit]
      rfl
  | flag negated term marks =>
      obtain rfl : negated = false := hnegated
      rw [negate, emit, emit]
      rfl
  | group negated c members asName =>
      obtain rfl : negated = false := hnegated
      rw [negate, emit, emit]
      cases members with
      | nil => exact absurd rfl (hempty c asName)
      | cons p ps =>
          rw [emitAll]
          -- A single member is written without parentheses, negated or not.
          cases ps with
          | nil =>
              rw [emitAll]
              rfl
          | cons q ps =>
              rw [emitAll]
              rfl

theorem emit_empty_group (c : Connective) (asName : String) (excluded : List String) :
    (Predicate.group false c [] asName).emit excluded = pure () := by
  rw [emit, emitAll]
  rfl

theorem appends_negate {p : Predicate} {excluded : List String} {w : Writer} {sql : String}
    {args : List Value} (h : Appends (p.emit excluded) w sql args) (hnegated : p.isNegated = false)
    (hsql : sql ≠ "") : Appends (p.negate.emit excluded) w ("NOT " ++ sql) args := by
  have hempty (c : Connective) (asName : String) : p ≠ .group false c [] asName := by
    rintro rfl
    rw [emit_empty_group] at h
    exact hsql (h.unique .nothing).1
  -- NOT binds nothing, so the placeholders behind it keep their numbers.
  obtain ⟨rfl, rfl⟩ := h.unique (p.emit_appends excluded w)
  rw [emit_negate hnegated hempty]
  exact (p.emit_appends excluded (w.pushText "NOT ")).after_text

theorem iterate_negate (p : Predicate) (n : Nat) :
    negate^[n] p = if n % 2 = 0 then p else p.negate := by
  induction n with
  | zero => rfl
  | succ n ih =>
      rw [Function.iterate_succ_apply', ih]
      by_cases h : n % 2 = 0
      · rw [if_pos h, if_neg (by omega)]
      · rw [if_neg h, if_pos (by omega), negate_negate]

end Predicate

/-- However often a predicate is negated, it is written as itself or as its one negation, under the
name it has. The one negation is NOT and what the predicate writes, if it writes anything. -/
theorem negation_shows_by_parity (p : Predicate) (excluded : List String) (w : Writer) :
    (∀ n : Nat,
      ((Predicate.negate^[n] p).emit excluded).run w =
          ((if n % 2 = 0 then p else p.negate).emit excluded).run w ∧
        (Predicate.negate^[n] p).asName = p.asName) ∧
    (∃ (sql : String) (args : List Value), Appends (p.emit excluded) w sql args) ∧
    ∀ (sql : String) (args : List Value), Appends (p.emit excluded) w sql args →
      p.isNegated = false → sql ≠ "" →
        Appends (p.negate.emit excluded) w ("NOT " ++ sql) args := by
  refine ⟨fun n => ?_, ⟨_, _, p.emit_appends excluded w⟩, fun _ _ => Predicate.appends_negate⟩
  rw [p.iterate_negate n]
  refine ⟨rfl, ?_⟩
  split
  · rfl
  · exact p.asName_negate

/-- The parentheses of the group stay as they are. -/
theorem negated_disjunction_keeps_parentheses :
    let p := Predicate.any [.flag false (.column "" "a") {}, .ofTemplate "b = ?" [.value (.int 2)]]
    let w : Writer := ⟨.mysql, "WHERE c = ? AND ", [.int 1]⟩
    Appends (p.emit []) w "(a OR b = ?)" [.int 2] ∧ p.isNegated = false ∧
      Appends (p.negate.emit []) w "NOT (a OR b = ?)" [.int 2] := by
  intro p w
  have h : Appends (p.emit []) w "(a OR b = ?)" [.int 2] := rfl
  have hnegated : p.isNegated = false := rfl
  exact ⟨h, hnegated, (negation_shows_by_parity p [] w).2.2 _ _ h hnegated (by decide)⟩

end BoundSql.Sql
