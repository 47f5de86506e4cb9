import BoundSql.Proofs.Slots
import BoundSql.Row.Shape
import Mathlib.Tactic.Common

/-!
# Mappers made of accessor calls

A mapper that reads its row through accessors alone is a tree of their calls. In the declare pass it
records the columns that it asks for. On the slots of a row it returns what a direct reading
returns, which answers accessor number `j` by converting column number `j` as it came.
-/
namespace BoundSql.Row

open FromValue (kind ofNullable)
open Sql (Field)

/-- One accessor call. -/
inductive Accessor : Type → Type 1
  /-- A column; `fallback` stands for what cannot be read. -/
  | column {α : Type} [FromValue α] [LosslessSlot α] (fallback : α) (f : Field) : Accessor α
  /-- Whether a column read as an `α` is not NULL. -/
  | valid (α : Type) [FromValue α] [LosslessSlot α] (f : Field) : Accessor Bool

namespace Accessor

variable {β : Type}

def run : {β : Type} → Accessor β → Reader β
  | _, @column _ _ _ fallback f => readOr fallback f
  | _, @valid α _ _ f => isValid α f

/-- What the declare pass returns. -/
def fallback : {β : Type} → Accessor β → β
  | _, @column _ _ _ fallback _ => fallback
  | _, @valid .. => false

/-- What the declare pass records. -/
def asked : {β : Type} → Accessor β → Field × SlotKind
  | _, @column α _ _ _ f => (f, kind α)
  | _, @valid α _ _ f => (f, kind α)

/-- The answer that the raw value of a column gives, if its type accepts that value. -/
inductive Yields : {β : Type} → Accessor β → Value → β → Prop
  | column {α : Type} [FromValue α] [LosslessSlot α] {fallback a : α} {f : Field} {v : Value}
      (h : ofNullable v = .ok a) : Yields (.column fallback f) v a
  | valid {α : Type} [FromValue α] [LosslessSlot α] {a : Option α} {f : Field} {v : Value}
      (h : ofNullable v = .ok a) : Yields (.valid α f) v (!v.isNull)

end Accessor

/-- A program that reads a row through accessors. -/
inductive Program (α : Type) : Type 1
  | done (a : α)
  | call {β : Type} (c : Accessor β) (next : β → Program α)
  | phase (next : Phase → Program α)
  | index (next : Nat → Program α)

namespace Program

variable {α σ : Type}

def bind {β : Type} : Program α → (α → Program β) → Program β
  | .done a, k => k a
  | .call c next, k => .call c fun b => (next b).bind k
  | .phase next, k => .phase fun p => (next p).bind k
  | .index next, k => .index fun i => (next i).bind k

instance : Monad Program where
  pure := .done
  bind := bind

def run : Program α → Reader α
  | .done a => pure a
  | .call c next => do (next (← c.run)).run
  | .phase next => do (next (← Row.phase)).run
  | .index next => do (next (← Row.index)).run

/-- The program of one call. -/
def ask {β : Type} (c : Accessor β) : Program β := .call c .done

theorem run_ask {β : Type} (c : Accessor β) : (ask c).run = c.run := rfl

/-- A program in `do` notation runs as the reader in `do` notation. -/
theorem run_bind {β : Type} (p : Program α) (k : α → Program β) :
    (p.bind k).run = p.run >>= fun a => (k a).run := by
  induction p with
  | done a => rfl
  | call c next ih => simp only [bind, run, ih, bind_assoc]
  | phase next ih => simp only [bind, run, ih, bind_assoc]
  | index next ih => simp only [bind, run, ih, bind_assoc]

/-- The mapper that runs a program. -/
def mapper (m : σ → Program (α × σ)) : Mapper σ α := fun s => (m s).run

/-- The columns that the program asks for in the declare pass behind `i` calls, and its result. -/
def declared (i : Nat) : Program α → List (Field × SlotKind) × α
  | .done a => ([], a)
  | .call c next =>
      let (columns, a) := (next c.fallback).declared (i + 1)
      (c.asked :: columns, a)
  | .phase next => (next .declaring).declared i
  | .index next => (next i).declared i

/-- A value pass behind `i` calls, each accessor answered by the raw value of the next column of the
row: the program asks for the columns, one for each value, and returns the item. -/
inductive Reads : Nat → Program α → List Value → List (Field × SlotKind) → α → Prop
  | done (i : Nat) (a : α) : Reads i (.done a) [] [] a
  | call {β : Type} {i : Nat} {c : Accessor β} {b : β} {next : β → Program α} {v : Value}
      {row : List Value} {columns : List (Field × SlotKind)} {a : α} (h : c.Yields v b)
      (hnext : Reads (i + 1) (next b) row columns a) :
      Reads i (.call c next) (v :: row) (c.asked :: columns) a
  | phase {i : Nat} {next : Phase → Program α} {row : List Value}
      {columns : List (Field × SlotKind)} {a : α}
      (h : Reads i (next .materializing) row columns a) : Reads i (.phase next) row columns a
  | index {i : Nat} {next : Nat → Program α} {row : List Value}
      {columns : List (Field × SlotKind)} {a : α}
      (h : Reads i (next i) row columns a) : Reads i (.index next) row columns a

end Program

theorem isValid_run (α : Type) [FromValue α] (f : Field) (s : State) :
    (isValid α f).run s =
      ((((readOr none f).run s).1 : Option α).isSome, ((readOr (none : Option α) f).run s).2) :=
  rfl

theorem index_run_of_declaring {s : State} (hs : s.phase = .declaring) :
    (Row.index.run s).1 = s.declared.length := by
  cases s
  cases hs
  rfl

theorem index_run_of_materializing {s : State} (hs : s.phase = .materializing) :
    (Row.index.run s).1 = s.next := by
  cases s
  cases hs
  rfl

namespace Program

variable {α β : Type} (s : State)

theorem run_call (c : Accessor β) (next : β → Program α) :
    (call c next).run.run s = (next (c.run.run s).1).run.run (c.run.run s).2 := rfl

theorem run_phase (next : Phase → Program α) :
    (phase next).run.run s = (next s.phase).run.run s := rfl

theorem run_index (next : Nat → Program α) :
    (index next).run.run s = (next (Row.index.run s).1).run.run s := rfl

end Program

theorem readOr_declaring {α : Type} [FromValue α] (fallback : α) (f : Field) {s : State}
    (hs : s.phase = .declaring) :
    (readOr fallback f).run s = (fallback, { s with declared := s.declared ++ [(f, kind α)] }) := by
  change readOr fallback f s = _
  simp only [readOr, State.read, hs]

theorem Accessor.run_declaring {β : Type} (c : Accessor β) {s : State}
    (hs : s.phase = .declaring) :
    c.run.run s = (c.fallback, { s with declared := s.declared ++ [c.asked] }) := by
  cases c with
  | column fallback f => exact readOr_declaring fallback f hs
  | @valid α _ _ f =>
      change (isValid α f).run s = _
      rw [isValid_run, readOr_declaring (α := Option α) none f hs]
      rfl

theorem Program.run_declaring {α : Type} (p : Program α) {s : State} (hs : s.phase = .declaring) :
    p.run.run s = ((p.declared s.declared.length).2,
      { s with declared := s.declared ++ (p.declared s.declared.length).1 }) := by
  induction p generalizing s with
  | done a =>
      simp only [run, declared, List.append_nil]
      rfl
  | call c next ih =>
      have hnext := ih c.fallback (s := { s with declared := s.declared ++ [c.asked] }) hs
      rw [run_call, c.run_declaring hs, hnext]
      simp [declared]
  | phase next ih =>
      have hphase : next s.phase = next .declaring := by rw [hs]
      rw [run_phase, hphase, ih _ hs]
      rfl
  | index next ih =>
      rw [run_index, index_run_of_declaring hs, ih _ hs]
      rfl

theorem readOr_slot {α : Type} [FromValue α] (fallback : α) (f : Field) {s : State} {slot : Value}
    {a : α} (hs : s.phase = .materializing) (hslot : s.slots[s.next]? = some slot)
    (ha : ofNullable slot = .ok a) :
    (readOr fallback f).run s = (a, { s with next := s.next + 1 }) := by
  change readOr fallback f s = _
  simp only [readOr, State.read, hs, hslot, ha]

/-- On the slot of a column the accessor answers as on the column itself. -/
theorem Accessor.Yields.run_slot {β : Type} {c : Accessor β} {v : Value} {b : β}
    (h : c.Yields v b) : ∃ slot, c.asked.2.scan v = .ok slot ∧
      ∀ s : State, s.phase = .materializing → s.slots[s.next]? = some slot →
        c.run.run s = (b, { s with next := s.next + 1 }) := by
  cases h with
  | @column _ _ _ fallback a f v h =>
      obtain ⟨slot, hscan, ha⟩ := LosslessSlot.exists_slot h
      exact ⟨slot, hscan, fun s hs hslot => readOr_slot fallback f hs hslot ha⟩
  | @valid α _ _ a f v h =>
      obtain ⟨slot, hscan, ha⟩ := LosslessSlot.exists_slot h
      refine ⟨slot, hscan, fun s hs hslot => ?_⟩
      change (isValid α f).run s = _
      rw [isValid_run, readOr_slot none f hs hslot ha, FromValue.isSome_of_ofNullable h]

namespace Program

variable {α : Type}

/-- Scanning a row into the slots of the columns succeeds, and behind `i` of the slots the program
reads the others as a direct reading reads the row. -/
theorem Reads.run_slots {i : Nat} {p : Program α} {row : List Value}
    {columns : List (Field × SlotKind)} {a : α} (h : p.Reads i row columns a) :
    ∃ slots, (∀ n, Shape.scanFrom n (columns.map (·.2)) row = .ok slots) ∧
      ∀ s : State, s.phase = .materializing → s.next = i → s.slots.drop i = slots →
        p.run.run s = (a, { s with next := i + columns.length }) := by
  induction h with
  | done i a =>
      refine ⟨[], fun _ => rfl, fun s _ hnext _ => ?_⟩
      subst hnext
      rfl
  | @call β i c b next v row columns a h _ ih =>
      obtain ⟨slot, hslot, hcall⟩ := h.run_slot
      obtain ⟨slots, hslots, hrun⟩ := ih
      refine ⟨slot :: slots, fun n => ?_, fun s hs hnext hdrop => ?_⟩
      · simp only [List.map_cons, Shape.scanFrom, hslot, hslots (n + 1)]
        rfl
      · subst hnext
        have hget : s.slots[s.next]? = some slot := by
          have := congrArg (·[0]?) hdrop
          simpa using this
        have htail : s.slots.drop (s.next + 1) = slots := by
          rw [← List.drop_drop, hdrop]
          rfl
        have hrest := hrun { s with next := s.next + 1 } hs rfl htail
        rw [run_call, hcall s hs hget, hrest, List.length_cons, Nat.add_assoc, Nat.add_comm 1]
  | @phase i next row columns a _ ih =>
      obtain ⟨slots, hslots, hrun⟩ := ih
      refine ⟨slots, hslots, fun s hs hnext hdrop => ?_⟩
      have hphase : next s.phase = next .materializing := by rw [hs]
      rw [run_phase, hphase, hrun s hs hnext hdrop]
  | @index i next row columns a _ ih =>
      obtain ⟨slots, hslots, hrun⟩ := ih
      refine ⟨slots, hslots, fun s hs hnext hdrop => ?_⟩
      rw [run_index, index_run_of_materializing hs, hnext, hrun s hs hnext hdrop]

theorem Reads.length_eq {i : Nat} {p : Program α} {row : List Value}
    {columns : List (Field × SlotKind)} {a : α} (h : p.Reads i row columns a) :
    row.length = columns.length := by
  induction h with
  | done => rfl
  | call _ _ ih => rw [List.length_cons, List.length_cons, ih]
  | phase _ ih => exact ih
  | index _ ih => exact ih

end Program

namespace Shape

variable {σ α : Type} (m : σ → Program (α × σ)) {s s' : σ}

theorem declare_mapper (s : σ) :
    declare (Program.mapper m) s = (⟨((m s).declared 0).1⟩, ((m s).declared 0).2.2) := by
  have h := (m s).run_declaring (s := State.declaring) rfl
  unfold declare Program.mapper
  rw [h]
  rfl

/-- A row that a direct reading reads is mapped to the same item; without columns any row is. -/
theorem item_mapper {columns : List (Field × SlotKind)} {row : List Value} {a : α}
    (h : (m s).Reads 0 (if columns.isEmpty then [] else row) columns (a, s')) :
    item ⟨columns⟩ (Program.mapper m) row s = (.ok a, s') := by
  obtain ⟨slots, hslots, hrun⟩ := h.run_slots
  have hscan : scan ⟨columns⟩ row = .ok slots := by
    unfold scan
    cases columns with
    | nil => exact hslots 0
    | cons column columns =>
        have hlength : row.length = (column :: columns).length := h.length_eq
        rw [if_neg (by simp [isEmpty]), if_neg (not_not.mpr hlength)]
        exact hslots 0
  have hrun := hrun (.materializing slots) rfl rfl rfl
  rw [Nat.zero_add] at hrun
  calc item ⟨columns⟩ (Program.mapper m) row s
      = materialize ⟨columns⟩ slots (Program.mapper m) s := by rw [item, hscan]
    _ = (if columns.length = columns.length then .ok a
          else .error (.readCount columns.length columns.length), s') := by
            unfold materialize Program.mapper
            rw [hrun]
            rfl
    _ = (.ok a, s') := by rw [if_pos rfl]

end Shape

end BoundSql.Row
