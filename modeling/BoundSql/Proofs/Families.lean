import BoundSql.Proofs.Mapper

/-!
# Families of accessors

A type that columns are read as has a plain accessor, one for columns that can be NULL, and in most
cases one that only tells whether a column is NULL. The three ask for the same slot and fail alike;
what the other two return is determined by what the accessor for NULL returns.
-/
namespace BoundSql.Row

open FromValue (kind ofNull ofNullable)
open Number (Binary64)
open Calendar (Instant)
open Sql (Field Predicate TypedField)

/-- The accessors of one type, for columns that are given as a `Source`. -/
structure Family where
  {Source Target : Type}
  [conversion : FromValue Target]
  /-- What the plain accessor returns where there is no value. -/
  zero : Target
  field : Source → Field
  plain : Source → Reader Target
  null : Source → Reader (Option Target)
  valid : Option (Source → Reader Bool)

attribute [instance] Family.conversion

/-- A column as an `α`: normalised for its slot, and then converted. -/
def reading (α : Type) [FromValue α] (v : Value) : Except ConvertError α :=
  (kind α).scan v >>= ofNullable

namespace Family

def bool : Family := ⟨false, .condition, Row.bool, nullBool, some boolValid⟩

def float64 : Family :=
  ⟨Binary64.zero, TypedField.toField, Row.float64, nullFloat64, some float64Valid⟩

/-- There is no accessor that only tells whether a column is NULL. -/
def int32 : Family := ⟨0, TypedField.toField, Row.int32, nullInt32, none⟩

def int64 : Family := ⟨0, TypedField.toField, Row.int64, nullInt64, some int64Valid⟩

def string : Family := ⟨"", TypedField.toField, Row.string, nullString, some stringValid⟩

def time : Family := ⟨Instant.epoch, TypedField.toField, Row.time, nullTime, some timeValid⟩

def all : List Family := [bool, float64, int32, int64, string, time]

def kind (F : Family) : SlotKind := FromValue.kind F.Target

/-- The accessors of a family agree. -/
structure Agrees (F : Family) : Prop where
  /-- They declare the same column with the same slot. -/
  declares : ∀ (x : F.Source) (s : State), s.phase = .declaring →
    let s' := { s with declared := s.declared ++ [(F.field x, F.kind)] }
    (F.plain x).run s = (F.zero, s') ∧ (F.null x).run s = (none, s') ∧
      ∀ valid ∈ F.valid, (valid x).run s = (false, s')
  /-- In either pass, on any slots and behind any calls, they do the same to the row, failures
  included. -/
  runs : ∀ (x : F.Source) (s : State),
    (F.plain x).run s = (((F.null x).run s).1.getD F.zero, ((F.null x).run s).2) ∧
      ∀ valid ∈ F.valid,
        (valid x).run s = (((F.null x).run s).1.isSome, ((F.null x).run s).2)
  /-- A column that can be read is read by all of them, wherever it stands in the row. -/
  reads : ∀ (v : Value) (a : F.Target), reading F.Target v = .ok a →
    (v.isNull → a = F.zero) ∧ ∃ slot, F.kind.scan v = .ok slot ∧
      ∀ (x : F.Source) (s : State), s.phase = .materializing → s.slots[s.next]? = some slot →
        let s' := { s with next := s.next + 1 }
        (F.plain x).run s = (a, s') ∧ (F.null x).run s = (if v.isNull then none else some a, s') ∧
          ∀ valid ∈ F.valid, (valid x).run s = (!v.isNull, s')
  /-- Any other column does not fit the slot that all of them declare, and the row fails with the
  position and the cause, whatever else is read of it behind that column. -/
  fails : ∀ (v : Value) (cause : ConvertError), reading F.Target v = .error cause →
    ∀ (shape : Shape) (row : List Value) (i : Nat), row.length = shape.columns.length →
      shape.kinds[i]? = some F.kind → row[i]? = some v →
      (∀ j < i, ∀ k w, shape.kinds[j]? = some k → row[j]? = some w → ∃ slot, k.scan w = .ok slot) →
      shape.scan row = .error (.column i cause)

end Family

section Calls

variable {α : Type} [FromValue α]

/-- Only NULL is converted in two ways, and only to a zero value. -/
theorem ofNullable_eq_map_getD {zero : α} (hzero : ofNull = .ok zero) (v : Value) :
    ofNullable v = (ofNullable (α := Option α) v).map (·.getD zero) := by
  cases hv : v.isNull with
  | true =>
      obtain rfl := Value.eq_null hv
      exact hzero
  | false =>
      rw [FromValue.ofNullable_option hv]
      cases ofNullable (α := α) v <;> rfl

theorem ofNullable_option_of_ok {v : Value} {a : α} (h : ofNullable v = .ok a) :
    ofNullable (α := Option α) v = .ok (if v.isNull then none else some a) := by
  cases hv : v.isNull with
  | true =>
      obtain rfl := Value.eq_null hv
      rfl
  | false =>
      rw [FromValue.ofNullable_option hv, h]
      rfl

/-- One slot answers the accessors of both types. -/
theorem exists_slot_option [LosslessSlot α] {v : Value} {a : α} (h : reading α v = .ok a) :
    ∃ slot, (FromValue.kind α).scan v = .ok slot ∧ ofNullable slot = .ok a ∧
      ofNullable (α := Option α) slot = .ok (if v.isNull then none else some a) := by
  rw [reading, LosslessSlot.scan_bind] at h
  obtain ⟨slot, hslot, ha⟩ := LosslessSlot.exists_slot h
  obtain ⟨slot', hslot', hoption⟩ := LosslessSlot.exists_slot (ofNullable_option_of_ok h)
  obtain rfl : slot' = slot := Except.ok.inj (hslot'.symm.trans hslot)
  exact ⟨slot', hslot, ha, hoption⟩

theorem readOr_eq_getD {zero : α} (hzero : ofNull = .ok zero) (f : Field) (s : State) :
    (readOr zero f).run s =
      (((readOr (none : Option α) f).run s).1.getD zero,
        ((readOr (none : Option α) f).run s).2) := by
  change readOr zero f s =
    ((readOr (none : Option α) f s).1.getD zero, (readOr (none : Option α) f s).2)
  have hkind : FromValue.kind (Option α) = FromValue.kind α := rfl
  simp only [readOr, hkind]
  obtain ⟨_ | v, s'⟩ := s.read f (FromValue.kind α)
  · rfl
  · simp only [ofNullable_eq_map_getD hzero v]
    cases ofNullable (α := Option α) v <;> rfl

/-- A slot that holds the result of a conversion is only missing if the conversion fails. -/
theorem scan_of_reading_error [LosslessSlot α] {zero : α} (hzero : ofNull = .ok zero)
    {slot : α → Value} (hscan : ∀ v : Value, (FromValue.kind α).scan v =
      if v.isNull then .ok .null else (FromValue.ofValue v).map slot)
    {v : Value} {cause : ConvertError} (h : reading α v = .error cause) :
    (FromValue.kind α).scan v = .error cause := by
  rw [reading, LosslessSlot.scan_bind] at h
  cases hv : v.isNull with
  | true =>
      obtain rfl := Value.eq_null hv
      have hnull : ofNullable (α := α) .null = .ok zero := hzero
      rw [hnull] at h
      cases h
  | false =>
      rw [FromValue.ofNullable_of_not_null hv] at h
      rw [hscan, hv, h]
      rfl

end Calls

theorem scanFrom_error {k : SlotKind} {v : Value} {cause : ConvertError}
    (h : k.scan v = .error cause) {i : Nat} (n : Nat) {kinds : List SlotKind} {row : List Value}
    (hkind : kinds[i]? = some k) (hvalue : row[i]? = some v)
    (hbefore : ∀ j < i, ∀ k w, kinds[j]? = some k → row[j]? = some w →
      ∃ slot, k.scan w = .ok slot) :
    Shape.scanFrom n kinds row = .error (.column (n + i) cause) := by
  induction i generalizing n kinds row with
  | zero =>
      rw [← List.head?_eq_getElem?] at hkind hvalue
      obtain ⟨kinds, rfl⟩ := List.head?_eq_some_iff.mp hkind
      obtain ⟨row, rfl⟩ := List.head?_eq_some_iff.mp hvalue
      simp only [Shape.scanFrom, h, Nat.add_zero]
  | succ i ih =>
      cases kinds with
      | nil => simp at hkind
      | cons k' kinds =>
          cases row with
          | nil => simp at hvalue
          | cons w row =>
              obtain ⟨slot, hslot⟩ := hbefore 0 (Nat.succ_pos i) k' w rfl rfl
              have htail := ih (n + 1) hkind hvalue fun j hj =>
                hbefore (j + 1) (Nat.succ_lt_succ hj)
              rw [Shape.scanFrom, hslot]
              simp only [htail, Nat.add_right_comm n 1 i]
              rfl

theorem Shape.scan_error {shape : Shape} {k : SlotKind} {v : Value} {cause : ConvertError}
    {i : Nat} {row : List Value} (h : k.scan v = .error cause)
    (hlength : row.length = shape.columns.length) (hkind : shape.kinds[i]? = some k)
    (hvalue : row[i]? = some v)
    (hbefore : ∀ j < i, ∀ k w, shape.kinds[j]? = some k → row[j]? = some w →
      ∃ slot, k.scan w = .ok slot) :
    shape.scan row = .error (.column i cause) := by
  have hnonempty : ¬shape.isEmpty := by
    intro hempty
    rw [Shape.kinds, List.isEmpty_iff.mp hempty] at hkind
    simp at hkind
  rw [Shape.scan, if_neg hnonempty, if_neg (not_not.mpr hlength),
    scanFrom_error h 0 hkind hvalue hbefore, Nat.zero_add]

namespace Family

section Column

variable {Source α : Type} [FromValue α] [LosslessSlot α] {zero : α} {field : Source → Field}
  {plain : Source → Reader α} {null : Source → Reader (Option α)}
  {valid : Option (Source → Reader Bool)}

/-- Accessors that read a column as an `α`, or as an optional one, agree. -/
theorem agrees_of (slot : α → Value) (hzero : ofNull = .ok zero)
    (hscan : ∀ v : Value, (FromValue.kind α).scan v =
      if v.isNull then .ok .null else (FromValue.ofValue v).map slot)
    (hplain : ∀ x, plain x = readOr zero (field x)) (hnull : ∀ x, null x = readOr none (field x))
    (hvalid : ∀ accessor ∈ valid, ∀ x, accessor x = isValid α (field x)) :
    Agrees ⟨zero, field, plain, null, valid⟩ where
  declares x s hs := by
    refine ⟨?_, ?_, fun accessor hmem => ?_⟩
    · change (plain x).run s = _
      rw [hplain, readOr_declaring zero (field x) hs]
      rfl
    · change (null x).run s = _
      rw [hnull, readOr_declaring none (field x) hs]
      rfl
    · rw [hvalid accessor hmem, isValid_run, readOr_declaring none (field x) hs]
      rfl
  runs x s := by
    refine ⟨?_, fun accessor hmem => ?_⟩
    · change (plain x).run s = (((null x).run s).1.getD zero, ((null x).run s).2)
      rw [hplain, hnull]
      exact readOr_eq_getD hzero (field x) s
    · change (accessor x).run s = (((null x).run s).1.isSome, ((null x).run s).2)
      rw [hvalid accessor hmem, isValid_run, hnull]
  reads v a h := by
    refine ⟨fun hv => ?_, ?_⟩
    · obtain rfl := Value.eq_null hv
      exact (Except.ok.inj (hzero.symm.trans h)).symm
    · -- All of them find the slot that was scanned for the type without NULL.
      obtain ⟨slot, hslot, ha, hoption⟩ := exists_slot_option h
      refine ⟨slot, hslot, fun x s hs hget => ⟨?_, ?_, fun accessor hmem => ?_⟩⟩
      · change (plain x).run s = _
        rw [hplain, readOr_slot zero (field x) hs hget ha]
      · change (null x).run s = _
        rw [hnull, readOr_slot none (field x) hs hget hoption]
      · rw [hvalid accessor hmem, isValid_run, readOr_slot none (field x) hs hget hoption]
        cases v.isNull <;> rfl
  fails v cause h _ _ _ hlength hkind hvalue hbefore :=
    Shape.scan_error (scan_of_reading_error hzero hscan h) hlength hkind hvalue hbefore

end Column

theorem agrees_of_mem_all {F : Family} (h : F ∈ all) : F.Agrees := by
  have hvalid {Source : Type} {valid accessor : Source → Reader Bool}
      (h : accessor ∈ some valid) (x : Source) : accessor x = valid x := by
    rw [Option.some.inj h]
  simp only [all, List.mem_cons, List.not_mem_nil, or_false] at h
  rcases h with rfl | rfl | rfl | rfl | rfl | rfl
  · exact agrees_of .bool rfl (fun _ => rfl) (fun _ => rfl) (fun _ => rfl) fun _ => hvalid
  · exact agrees_of .float rfl (fun _ => rfl) (fun _ => rfl) (fun _ => rfl) fun _ => hvalid
  · exact agrees_of (fun n => .int n.toInt64) rfl (fun _ => rfl) (fun _ => rfl)
      (fun _ => rfl) fun _ h => by cases h
  · exact agrees_of .int rfl (fun _ => rfl) (fun _ => rfl) (fun _ => rfl) fun _ => hvalid
  · exact agrees_of .text rfl (fun _ => rfl) (fun _ => rfl) (fun _ => rfl) fun _ => hvalid
  · exact agrees_of .time rfl (fun _ => rfl) (fun _ => rfl) (fun _ => rfl) fun _ => hvalid

end Family

theorem fitsInt32_iff (n : Int64) :
    Value.fitsInt32 n ↔ -2147483648 ≤ n.toInt ∧ n.toInt ≤ 2147483647 := by
  simp only [Value.fitsInt32, Bool.and_eq_true, decide_eq_true_eq]

theorem toInt_toInt32_of_fits {n : Int64} (h : Value.fitsInt32 n) : n.toInt32.toInt = n.toInt := by
  obtain ⟨hlower, hupper⟩ := (fitsInt32_iff n).mp h
  rw [Int64.toInt_toInt32]
  exact Int.bmod_eq_of_le (by omega) (by omega)

theorem toInt32_eq_ok_iff (v : Value) (n : Int32) :
    v.toInt32 = .ok n ↔ ∃ wide : Int64, v.toInt64 = .ok wide ∧
      (-2147483648 ≤ wide.toInt ∧ wide.toInt ≤ 2147483647) ∧ n.toInt = wide.toInt := by
  simp only [← fitsInt32_iff]
  rw [Value.toInt32]
  constructor
  · intro h
    cases hwide : v.toInt64 with
    | error cause =>
        rw [hwide] at h
        cases h
    | ok wide =>
        rw [hwide] at h
        change (if Value.fitsInt32 wide then _ else _) = _ at h
        by_cases hfits : Value.fitsInt32 wide
        · rw [if_pos hfits] at h
          cases h
          exact ⟨wide, rfl, hfits, toInt_toInt32_of_fits hfits⟩
        · rw [if_neg hfits] at h
          cases h
  · rintro ⟨wide, hwide, hfits, hn⟩
    have hnarrow : wide.toInt32 = n := by
      rw [← Int32.toInt_inj, toInt_toInt32_of_fits hfits, hn]
    rw [hwide, ← hnarrow]
    exact if_pos hfits

/-- A column is a number of 32 bits exactly if it is one of 64 bits that fits. -/
theorem reading_int32_iff (v : Value) (n : Int32) :
    reading Int32 v = .ok n ↔ ∃ wide : Int64, reading Int64 v = .ok wide ∧
      (-2147483648 ≤ wide.toInt ∧ wide.toInt ≤ 2147483647) ∧ n.toInt = wide.toInt := by
  rw [reading, reading, LosslessSlot.scan_bind, LosslessSlot.scan_bind]
  cases hv : v.isNull with
  | false =>
      rw [FromValue.ofNullable_of_not_null hv, FromValue.ofNullable_of_not_null hv]
      exact toInt32_eq_ok_iff v n
  | true =>
      obtain rfl := Value.eq_null hv
      constructor
      · intro h
        obtain rfl : 0 = n := Except.ok.inj h
        exact ⟨0, rfl, by decide, rfl⟩
      · rintro ⟨wide, hwide, -, hn⟩
        obtain rfl : 0 = wide := Except.ok.inj hwide
        obtain rfl : n = 0 := Int32.toInt_inj.mp hn
        rfl

/-- The accessors of every type agree on every column, and a number of 32 bits is read exactly
where a number of 64 bits is read that fits, and is the same number. -/
theorem accessor_families_agree :
    (∀ F ∈ Family.all, F.Agrees) ∧
      ∀ (v : Value) (n : Int32), reading Int32 v = .ok n ↔
        ∃ wide : Int64, reading Int64 v = .ok wide ∧
          (-2147483648 ≤ wide.toInt ∧ wide.toInt ≤ 2147483647) ∧ n.toInt = wide.toInt :=
  ⟨fun _ => Family.agrees_of_mem_all, reading_int32_iff⟩

/-- A count that comes as text, and one that is no number, in the second column of a row. -/
theorem int64_accessors_agree_on_text :
    (let s := State.materializing [.text "ann", .int 7]
     let count : TypedField .number := .bare "count"
     let after := { s with next := 2 }
     ((string (.bare "name") >>= fun _ => int64 count).run s = (7, after)) ∧
       ((string (.bare "name") >>= fun _ => nullInt64 count).run s = (some 7, after)) ∧
       ((string (.bare "name") >>= fun _ => int64Valid count).run s = (true, after))) ∧
      Shape.scan ⟨[(.bare "name", .string), (.bare "count", .int64)]⟩ [.text "ann", .text "many"] =
        .error (.column 1 (.mismatch "text" .int64)) := by
  have hagrees : Family.int64.Agrees :=
    accessor_families_agree.1 Family.int64 (by simp [Family.all])
  obtain ⟨-, slot, hslot, hreads⟩ := hagrees.reads (.text " 7 ") (7 : Int64) rfl
  obtain rfl : .int 7 = slot := Except.ok.inj hslot
  obtain ⟨hplain, hnull, hvalid⟩ := hreads (.bare "count")
    { phase := .materializing, slots := [.text "ann", .int 7], next := 1 } rfl rfl
  refine ⟨⟨hplain, hnull, hvalid int64Valid rfl⟩, ?_⟩
  refine hagrees.fails (.text "many") _ rfl _ _ 1 rfl rfl rfl fun j hj k w hk hw => ?_
  obtain rfl : j = 0 := by omega
  cases hk
  cases hw
  exact ⟨.text "ann", rfl⟩

end BoundSql.Row
