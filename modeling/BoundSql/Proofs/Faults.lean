import BoundSql.Proofs.Mapper
import Mathlib.Data.List.Forall2

/-!
# Faults of a row

A mapper can call other accessors on a row than it declared, more of them or fewer, and the values
of a row can be of the wrong types. Whatever goes wrong first is what becomes of the row; an item is
only returned if nothing did.
-/
namespace BoundSql.Row

open FromValue (ofNullable)
open Sql (Field)

/-- A column asked for as a `Target`; `fallback` stands for what cannot be read. -/
structure Request where
  {Target : Type}
  [conversion : FromValue Target]
  fallback : Target
  field : Field

attribute [instance] Request.conversion

namespace Request

variable (q : Request)

def kind : SlotKind := FromValue.kind q.Target

/-- What the declare pass records. -/
def column : Field × SlotKind := (q.field, q.kind)

def run : Reader q.Target := readOr q.fallback q.field

/-- What request number `j` finds in the slots. -/
def reading (slots : List Value) (j : Nat) : Except ScanCause q.Target :=
  match slots[j]? with
  | some slot => (ofNullable slot).mapError .conversion
  | none => .error (.undeclared j slots.length)

def answer (slots : List Value) (j : Nat) : q.Target :=
  match q.reading slots j with
  | .ok a => a
  | .error _ => q.fallback

def fault (slots : List Value) (j : Nat) : Option ScanCause :=
  match q.reading slots j with
  | .ok _ => none
  | .error cause => some cause

/-- A request fails if no slot was declared for it, or if its slot does not convert. -/
theorem fault_isSome_iff (slots : List Value) (j : Nat) :
    (q.fault slots j).isSome ↔ slots.length ≤ j ∨
      ∃ slot cause, slots[j]? = some slot ∧ ofNullable (α := q.Target) slot = .error cause := by
  unfold fault reading
  cases hslot : slots[j]? with
  | none => simp [List.getElem?_eq_none_iff.mp hslot]
  | some slot =>
      obtain ⟨hj, -⟩ := List.getElem?_eq_some_iff.mp hslot
      cases ha : ofNullable (α := q.Target) slot <;> simp [Except.mapError, ha, hj]

end Request

/-- A request with what it was answered. -/
structure Answered where
  request : Request
  answer : request.Target

/-- Run from the first state, the reader makes these requests, one after the other, and returns the
result in the second state. Apart from the answers it sees the phase and the index of the row. -/
inductive Asks {α : Type} : Reader α → State → List Answered → α → State → Prop
  | done (a : α) (s : State) : Asks (pure a) s [] a s
  | request {q : Request} {next : q.Target → Reader α} {s s' : State} {rest : List Answered} {a : α}
      (h : Asks (next (q.run.run s).1) (q.run.run s).2 rest a s') :
      Asks (q.run >>= next) s (⟨q, (q.run.run s).1⟩ :: rest) a s'
  | phase {next : Phase → Reader α} {s s' : State} {asked : List Answered} {a : α}
      (h : Asks (next s.phase) s asked a s') : Asks (Row.phase >>= next) s asked a s'
  | index {next : Nat → Reader α} {s s' : State} {asked : List Answered} {a : α}
      (h : Asks (next (Row.index.run s).1) s asked a s') : Asks (Row.index >>= next) s asked a s'

/-- The first fault of requests that start at slot number `j`. -/
def firstFault (slots : List Value) (j : Nat) (asked : List Answered) : Option ScanCause :=
  (asked.zipIdx j).findSome? fun (c, j) => c.request.fault slots j

/-- The first of the columns, counted from `i`, that does not fit its slot. -/
def firstMisfit (i : Nat) (declared : List Answered) (row : List Value) : Option ScanCause :=
  ((declared.zip row).zipIdx i).findSome? fun ((c, v), i) =>
    match c.request.kind.scan v with
    | .ok _ => none
    | .error cause => some (.column i cause)

/-- The columns in their slots. -/
def Scanned (declared : List Answered) (row slots : List Value) : Prop :=
  List.Forall₂ (fun (c, v) slot => c.request.kind.scan v = .ok slot) (declared.zip row) slots

variable {α : Type} {r : Reader α} {s s' : State} {declared asked : List Answered} {a : α}

/-- Whether a column is valid is asked for as an optional column. -/
theorem Asks.valid {β : Type} [FromValue β] {f : Field} {next : Bool → Reader α}
    {rest : List Answered}
    (h : Asks (next ((isValid β f).run s).1) ((isValid β f).run s).2 rest a s') :
    Asks (isValid β f >>= next) s
      (⟨{ fallback := (none : Option β), field := f }, ((column (Option β) f).run s).1⟩ :: rest)
      a s' :=
  @Asks.request α { fallback := (none : Option β), field := f } (fun b => next b.isSome) _ _ _ _ h

/-- Every program of accessor calls makes such requests, in either pass. -/
theorem Program.exists_asks (p : Program α) (s : State) :
    ∃ asked a s', Asks p.run s asked a s' := by
  induction p generalizing s with
  | done a => exact ⟨[], a, s, .done a s⟩
  | call c next ih =>
      obtain ⟨rest, a, s', h⟩ := ih (c.run.run s).1 (c.run.run s).2
      cases c with
      | @column β _ _ fallback f =>
          exact ⟨_, a, s', .request (q := { fallback, field := f }) h⟩
      | valid β f => exact ⟨_, a, s', .valid h⟩
  | phase next ih =>
      obtain ⟨asked, a, s', h⟩ := ih s.phase s
      exact ⟨asked, a, s', .phase h⟩
  | index next ih =>
      obtain ⟨asked, a, s', h⟩ := ih (Row.index.run s).1 s
      exact ⟨asked, a, s', .index h⟩

theorem Asks.run_eq (h : Asks r s asked a s') : r.run s = (a, s') := by
  induction h with
  | done a s => rfl
  | request h ih => exact ih
  | phase h ih => exact ih
  | index h ih => exact ih

theorem Asks.declared_eq (h : Asks r s asked a s') (hs : s.phase = .declaring) :
    s'.declared = s.declared ++ asked.map (·.request.column) := by
  induction h with
  | done a s => simp
  | @request q next s s' rest a h ih =>
      have hstep : q.run.run s =
          (q.fallback, { s with declared := s.declared ++ [q.column] }) :=
        readOr_declaring q.fallback q.field hs
      rw [hstep] at h ih
      rw [ih hs]
      simp
  | phase h ih => exact ih hs
  | index h ih => exact ih hs

/-- A request takes the next slot, whatever failed before it; an earlier failure is kept. -/
theorem Request.run_materializing (q : Request) (hs : s.phase = .materializing) :
    q.run.run s = (q.answer s.slots s.next,
      { s with next := s.next + 1, failure := s.failure.or (q.fault s.slots s.next) }) := by
  change readOr q.fallback q.field s = _
  unfold Request.answer Request.fault Request.reading
  cases hslot : s.slots[s.next]? with
  | none =>
      simp only [readOr, State.read, hs, hslot, State.fail]
      cases s.failure <;> rfl
  | some slot =>
      cases ha : ofNullable (α := q.Target) slot with
      | ok a => simp [readOr, State.read, hs, hslot, ha, Except.mapError]
      | error cause =>
          simp only [readOr, State.read, hs, hslot, ha, State.fail]
          cases s.failure <;> rfl

theorem Asks.state_eq (h : Asks r s asked a s') (hs : s.phase = .materializing) :
    s' = { s with
      next := s.next + asked.length
      failure := s.failure.or (firstFault s.slots s.next asked) } := by
  induction h with
  | done a s => simp [firstFault]
  | @request q next s s' rest a h ih =>
      rw [q.run_materializing hs] at ih
      rw [ih hs]
      simp only [firstFault, List.zipIdx_cons, List.findSome?_cons, List.length_cons]
      cases q.fault s.slots s.next <;> simp [Nat.add_assoc, Nat.add_comm 1]
  | phase h ih => exact ih hs
  | index h ih => exact ih hs

/-- Request number `j` is answered from slot number `j`. -/
theorem Asks.answer_eq (h : Asks r s asked a s') (hs : s.phase = .materializing) {j : Nat}
    {c : Answered} (hc : asked[j]? = some c) :
    c.answer = c.request.answer s.slots (s.next + j) := by
  induction h generalizing j with
  | done a s => simp at hc
  | @request q next s s' rest a h ih =>
      rw [q.run_materializing hs] at ih
      cases j with
      | zero =>
          cases hc
          rw [q.run_materializing hs]
          rfl
      | succ j =>
          rw [ih hs hc]
          simp only [Nat.add_assoc, Nat.add_comm 1]
  | phase h ih => exact ih hs hc
  | index h ih => exact ih hs hc

theorem scanFrom_of_firstMisfit {i : Nat} {row : List Value} {cause : ScanCause}
    (h : firstMisfit i declared row = some cause) :
    Shape.scanFrom i (declared.map (·.request.kind)) row = .error cause := by
  induction declared generalizing i row with
  | nil => simp [firstMisfit] at h
  | cons c declared ih =>
      cases row with
      | nil => simp [firstMisfit] at h
      | cons v row =>
          simp only [firstMisfit, List.zip_cons_cons, List.zipIdx_cons, List.findSome?_cons] at h
          rw [List.map_cons, Shape.scanFrom]
          cases hslot : c.request.kind.scan v with
          | error cause' => simpa [hslot] using h
          | ok slot =>
              rw [hslot] at h
              simp only [ih h]
              rfl

theorem exists_scanned {i : Nat} {row : List Value} (h : firstMisfit i declared row = none) :
    ∃ slots, Scanned declared row slots := by
  induction declared generalizing i row with
  | nil => exact ⟨[], .nil⟩
  | cons c declared ih =>
      cases row with
      | nil => exact ⟨[], .nil⟩
      | cons v row =>
          simp only [firstMisfit, List.zip_cons_cons, List.zipIdx_cons, List.findSome?_cons] at h
          cases hslot : c.request.kind.scan v with
          | error cause => simp [hslot] at h
          | ok slot =>
              rw [hslot] at h
              obtain ⟨slots, hslots⟩ := ih h
              exact ⟨slot :: slots, .cons hslot hslots⟩

theorem Scanned.scanFrom {row slots : List Value} (h : Scanned declared row slots) (i : Nat) :
    Shape.scanFrom i (declared.map (·.request.kind)) row = .ok slots := by
  induction declared generalizing i row slots with
  | nil =>
      cases h
      rw [List.map_nil, Shape.scanFrom]
      simp
  | cons c declared ih =>
      cases row with
      | nil =>
          cases h
          rw [List.map_cons, Shape.scanFrom]
          simp
      | cons v row =>
          obtain _ | ⟨hslot, hslots⟩ := h
          rw [List.map_cons, Shape.scanFrom]
          simp only [hslot, ih hslots]
          rfl

/-- The shape of a mapper that makes these requests in the declare pass. -/
def Shape.ofRequests (declared : List Answered) : Shape := ⟨declared.map (·.request.column)⟩

/-- The result of a value pass on the slots of `n` columns: its first fault, else that it read too
few, else its item. -/
def verdict (n : Nat) (slots : List Value) (asked : List Answered) (a : α) : Except ScanCause α :=
  match firstFault slots 0 asked with
  | some cause => .error cause
  | none => if asked.length < n then .error (.readCount asked.length n) else .ok a

section Rows

variable {σ : Type} {m : Mapper σ α} {s₀ s₁ s s' : σ} {zero a : α} {t : State}
  {row slots : List Value}

@[simp] theorem Shape.length_ofRequests :
    (Shape.ofRequests declared).columns.length = declared.length := by
  simp [ofRequests]

@[simp] theorem Shape.kinds_ofRequests :
    (Shape.ofRequests declared).kinds = declared.map (·.request.kind) := by
  simp only [ofRequests, kinds, List.map_map]
  rfl

theorem Shape.isEmpty_ofRequests (hn : 0 < declared.length) :
    (Shape.ofRequests declared).isEmpty = false := by
  cases declared with
  | nil => simp at hn
  | cons c declared => rfl

theorem Asks.declare_eq (h : Asks (m s₀) .declaring declared (zero, s₁) t) :
    Shape.declare m s₀ = (.ofRequests declared, s₁) := by
  have hdeclared := h.declared_eq rfl
  unfold Shape.declare
  rw [h.run_eq]
  simp [hdeclared, State.declaring, Shape.ofRequests]

theorem item_of_length_ne (hn : 0 < declared.length) (hrow : row.length ≠ declared.length)
    (m : Mapper σ α) (s : σ) :
    (Shape.ofRequests declared).item m row s =
      (.error (.columnCount declared.length row.length), s) := by
  rw [Shape.item, Shape.scan, Shape.isEmpty_ofRequests hn, Shape.length_ofRequests, if_pos hrow]
  rfl

theorem item_of_misfit {cause : ScanCause} (hn : 0 < declared.length)
    (hrow : row.length = declared.length) (h : firstMisfit 0 declared row = some cause)
    (m : Mapper σ α) (s : σ) : (Shape.ofRequests declared).item m row s = (.error cause, s) := by
  rw [Shape.item, Shape.scan, Shape.isEmpty_ofRequests hn, Shape.length_ofRequests,
    if_neg (not_not.mpr hrow), Shape.kinds_ofRequests, scanFrom_of_firstMisfit h]
  rfl

theorem Scanned.length_eq (h : Scanned declared row slots)
    (hrow : 0 < declared.length → row.length = declared.length) :
    slots.length = declared.length := by
  have hlength := List.Forall₂.length_eq h
  rw [List.length_zip] at hlength
  omega

theorem Scanned.scan_eq (h : Scanned declared row slots)
    (hrow : 0 < declared.length → row.length = declared.length) :
    (Shape.ofRequests declared).scan row = .ok slots := by
  cases declared with
  | nil =>
      cases h
      rfl
  | cons c declared =>
      have hn : 0 < (c :: declared).length := Nat.succ_pos _
      rw [Shape.scan, Shape.isEmpty_ofRequests hn, Shape.length_ofRequests,
        if_neg (not_not.mpr (hrow hn)), Shape.kinds_ofRequests, h.scanFrom 0]
      rfl

theorem Asks.materialize_eq (h : Asks (m s) (.materializing slots) asked (a, s') t)
    (shape : Shape) :
    shape.materialize slots m s =
      (match firstFault slots 0 asked with
        | some cause => .error cause
        | none =>
            if asked.length = shape.columns.length then .ok a
            else .error (.readCount asked.length shape.columns.length),
        s') := by
  unfold Shape.materialize
  rw [h.run_eq, h.state_eq rfl]
  cases hfault : firstFault slots 0 asked <;> simp [State.materializing, hfault]

theorem firstFault_eq_none_iff :
    firstFault slots 0 asked = none ↔
      ∀ (j : Nat) (c : Answered), asked[j]? = some c → c.request.fault slots j = none := by
  simp only [firstFault, List.findSome?_eq_none_iff, Prod.forall, List.mk_mem_zipIdx_iff_getElem?]
  exact forall_comm

/-- Without a fault there is a slot for every request. -/
theorem length_le_of_firstFault (h : firstFault slots 0 asked = none) :
    asked.length ≤ slots.length := by
  by_contra hlength
  have hj : slots.length < asked.length := by omega
  have hfault := firstFault_eq_none_iff.mp h _ _ (List.getElem?_eq_getElem hj)
  have hsome := (asked[slots.length].request.fault_isSome_iff slots _).mpr (.inl (Nat.le_refl _))
  rw [hfault] at hsome
  cases hsome

theorem Asks.item_eq (h : Asks (m s) (.materializing slots) asked (a, s') t)
    (hslots : Scanned declared row slots)
    (hrow : 0 < declared.length → row.length = declared.length) :
    (Shape.ofRequests declared).item m row s = (verdict declared.length slots asked a, s') := by
  rw [Shape.item, hslots.scan_eq hrow]
  simp only [h.materialize_eq, Shape.length_ofRequests, verdict]
  cases hfault : firstFault slots 0 asked with
  | some cause => rfl
  | none =>
      have hle := length_le_of_firstFault hfault
      rw [hslots.length_eq hrow] at hle
      by_cases heq : asked.length = declared.length
      · simp [heq]
      · have hlt : asked.length < declared.length := by omega
        simp [heq, hlt]

/-- Only a pass that read every slot, each without a fault, has an item. -/
theorem eq_of_verdict_eq_ok {b : α} (hslots : slots.length = declared.length)
    (h : verdict declared.length slots asked a = .ok b) :
    asked.length = declared.length ∧ firstFault slots 0 asked = none := by
  unfold verdict at h
  cases hfault : firstFault slots 0 asked with
  | some cause => simp [hfault] at h
  | none =>
      have hle := length_le_of_firstFault hfault
      simp only [hfault] at h
      split at h
      · cases h
      · exact ⟨by omega, rfl⟩

end Rows

/-- What becomes of a row, whichever accessors a mapper declares and whichever it calls on the row.
A row with another number of columns, or with a column that does not fit, is not mapped at all.
On the slots of any other row accessor number `j` is answered from slot number `j`; the result is
the first fault, else that too few columns were read, else the item. -/
theorem faults_are_caught {σ : Type} {m : Mapper σ α} {s₀ s₁ : σ} {zero : α} {t : State}
    (hdeclared : Asks (m s₀) .declaring declared (zero, s₁) t) (row : List Value) (s : σ) :
    let shape := (Shape.declare m s₀).1
    let n := declared.length
    (0 < n → row.length ≠ n → ∀ m' : Mapper σ α,
      shape.item m' row s = (.error (.columnCount n row.length), s)) ∧
    (0 < n → row.length = n → ∀ cause, firstMisfit 0 declared row = some cause →
      ∀ m' : Mapper σ α, shape.item m' row s = (.error cause, s)) ∧
    (firstMisfit 0 declared row = none → ∃ slots, Scanned declared row slots) ∧
    ((0 < n → row.length = n) → ∀ slots, Scanned declared row slots →
      ∀ (asked : List Answered) (a : α) (s' : σ) (t' : State),
        Asks (m s) (.materializing slots) asked (a, s') t' →
        (∀ (j : Nat) (c : Answered), asked[j]? = some c →
          c.answer = c.request.answer slots j ∧
          ((c.request.fault slots j).isSome ↔ n ≤ j ∨
            ∃ slot cause, slots[j]? = some slot ∧
              ofNullable (α := c.request.Target) slot = .error cause)) ∧
        shape.item m row s = (verdict n slots asked a, s') ∧
        ∀ b, (shape.item m row s).1 = .ok b →
          asked.length = n ∧
            ∀ (j : Nat) (c : Answered), asked[j]? = some c → c.request.fault slots j = none) := by
  intro shape n
  have hshape : shape = .ofRequests declared := congrArg (·.1) hdeclared.declare_eq
  rw [hshape]
  refine ⟨fun hn hrow m' => item_of_length_ne hn hrow m' s,
    fun hn hrow cause h m' => item_of_misfit hn hrow h m' s, exists_scanned, ?_⟩
  intro hrow slots hslots asked a s' t' hasks
  have hlength : slots.length = n := hslots.length_eq hrow
  have hitem := hasks.item_eq hslots hrow
  refine ⟨fun j c hc => ⟨?_, ?_⟩, hitem, fun b hb => ?_⟩
  · simpa [State.materializing] using hasks.answer_eq rfl hc
  · rw [← hlength]
    exact c.request.fault_isSome_iff slots j
  · rw [hitem] at hb
    obtain ⟨hcount, hfault⟩ := eq_of_verdict_eq_ok hlength hb
    exact ⟨hcount, firstFault_eq_none_iff.mp hfault⟩

/-- A name and a number are declared, but a number, a name and a note are read. -/
def fickle (_ : Unit) : Reader ((Int64 × Bool × String) × Unit) := do
  match ← Row.phase with
  | .declaring =>
      let name ← string (.bare "name")
      let id ← int64 (.bare "id")
      return ((id, true, name), ())
  | .materializing =>
      let id ← int64 (.bare "id")
      let named ← stringValid (.bare "name")
      let note ← scanInto "kept" (.bare "note")
      return ((id, named, note), ())

/-- The name is no number; that there is no note comes later and is not told. -/
theorem fickle_is_caught :
    let shape := (Shape.declare fickle ()).1
    shape.item fickle [.text "ann", .int 5] () =
        (.error (.conversion (.mismatch "text" .int64)), ()) ∧
      shape.item fickle [.text "ann"] () = (.error (.columnCount 2 1), ()) := by
  intro shape
  let name : Request := { fallback := "", field := .bare "name" }
  let id : Request := { fallback := (0 : Int64), field := .bare "id" }
  let named : Request := { fallback := (none : Option String), field := .bare "name" }
  let note : Request := { fallback := "kept", field := .bare "note" }
  have hdeclared : Asks (fickle ()) .declaring [⟨name, ""⟩, ⟨id, (0 : Int64)⟩]
      ((0, true, ""), ()) _ :=
    .phase (.request (q := name) (.request (q := id) (.done _ _)))
  have hasks : Asks (fickle ()) (.materializing [.text "ann", .int 5])
      [⟨id, (0 : Int64)⟩, ⟨named, _⟩, ⟨note, "kept"⟩] ((0, true, "kept"), ()) _ :=
    .phase (.request (q := id) (.valid (β := String) (f := .bare "name")
        (.request (q := note) (.done _ _))))
  have hslots : Scanned [⟨name, ""⟩, ⟨id, (0 : Int64)⟩] [.text "ann", .int 5]
      [.text "ann", .int 5] :=
    .cons rfl (.cons rfl .nil)
  obtain ⟨-, -, -, hmapped⟩ := faults_are_caught hdeclared [.text "ann", .int 5] ()
  obtain ⟨-, hitem, -⟩ := hmapped (fun _ => rfl) _ hslots _ _ _ _ hasks
  obtain ⟨hcount, -⟩ := faults_are_caught hdeclared [.text "ann"] ()
  exact ⟨hitem, hcount (by decide) (by decide) fickle⟩

end BoundSql.Row
