import BoundSql.Value.Convert

/-!
# Slots lose nothing

A column is normalised for the slot of a type before it is converted to that type. For every type
of this library the two steps together are the conversion of the column as it is, failures included.
-/
namespace BoundSql

open Number (Binary64)
open Calendar (Instant)
open FromValue (kind ofNull ofNullable)

/-- Types whose slots keep what their conversion sees in a column. -/
class LosslessSlot (α : Type) [FromValue α] : Prop where
  scan_bind (v : Value) : (kind α).scan v >>= ofNullable (α := α) = ofNullable v

theorem Value.eq_null {v : Value} (h : v.isNull) : v = .null := by
  cases v with
  | null => rfl
  | _ => simp [isNull] at h

namespace FromValue

variable {α : Type} [FromValue α]

theorem ofNullable_of_not_null {v : Value} (h : v.isNull = false) :
    ofNullable (α := α) v = ofValue v := by
  cases v
  case null => simp [Value.isNull] at h
  all_goals rfl

/-- A value that is not NULL is some value. -/
theorem ofNullable_option {v : Value} (h : v.isNull = false) :
    ofNullable (α := Option α) v = (ofNullable (α := α) v).map some := by
  rw [ofNullable_of_not_null h, ofNullable_of_not_null h]
  rfl

theorem isSome_of_ofNullable {v : Value} {a : Option α} (h : ofNullable v = .ok a) :
    a.isSome = !v.isNull := by
  cases hv : v.isNull with
  | true =>
      obtain rfl := Value.eq_null hv
      cases h
      rfl
  | false =>
      rw [ofNullable_option hv] at h
      cases hvalue : ofNullable (α := α) v with
      | error cause =>
          rw [hvalue] at h
          cases h
      | ok b =>
          rw [hvalue] at h
          cases h
          rfl

end FromValue

namespace LosslessSlot

variable {α : Type} [FromValue α]

/-- What converts as it is converts from its slot. -/
theorem exists_slot [LosslessSlot α] {v : Value} {a : α} (h : ofNullable v = .ok a) :
    ∃ slot, (kind α).scan v = .ok slot ∧ ofNullable slot = .ok a := by
  rw [← scan_bind] at h
  cases hslot : (kind α).scan v with
  | error cause =>
      rw [hslot] at h
      cases h
  | ok slot =>
      rw [hslot] at h
      exact ⟨slot, rfl, h⟩

theorem of_raw (h : kind α = .raw) : LosslessSlot α := by
  constructor
  intro v
  rw [h]
  cases v <;> rfl

/-- A slot that holds the result of the conversion, in a form that converts back. -/
theorem of_slot (slot : α → Value)
    (hscan : ∀ v : Value, (kind α).scan v =
      if v.isNull then .ok .null else (FromValue.ofValue v).map slot)
    (hback : ∀ (v : Value) (a : α), FromValue.ofValue v = .ok a →
      ofNullable (slot a) = .ok a) : LosslessSlot α := by
  constructor
  intro v
  rw [hscan]
  cases hv : v.isNull with
  | true =>
      obtain rfl := Value.eq_null hv
      rfl
  | false =>
      rw [FromValue.ofNullable_of_not_null hv]
      cases ha : FromValue.ofValue (α := α) v with
      | error cause => rfl
      | ok a => exact hback v a ha

end LosslessSlot

/-- A number that fits into 32 bits still does after it was widened again. -/
theorem Value.toInt32_int (n : Int32) : Value.toInt32 (.int n.toInt64) = .ok n := by
  have hlower := n.le_toInt
  have hupper := n.toInt_lt
  have hfits : Value.fitsInt32 n.toInt64 := by
    simp only [Value.fitsInt32, Int32.toInt_toInt64, Bool.and_eq_true, decide_eq_true_eq]
    omega
  calc Value.toInt32 (.int n.toInt64)
      = if Value.fitsInt32 n.toInt64 then .ok n.toInt64.toInt32
        else .error (.outOfRange n.toInt64) := rfl
    _ = .ok n := by rw [if_pos hfits, Int32.toInt32_toInt64]

/-- Only NULL is scanned into NULL. -/
theorem SlotKind.scan_not_null {k : SlotKind} {v slot : Value} (hv : v.isNull = false)
    (h : k.scan v = .ok slot) : slot.isNull = false := by
  have hmap {β : Type} {read : Except ConvertError β} {wrap : β → Value}
      (hwrap : ∀ b, (wrap b).isNull = false) (hread : read.map wrap = .ok slot) :
      slot.isNull = false := by
    cases read with
    | error cause => cases hread
    | ok b =>
        cases hread
        exact hwrap b
  simp only [scan, hv, Bool.false_eq_true, if_false] at h
  cases k with
  | raw =>
      cases h
      exact hv
  | _ => exact hmap (fun _ => rfl) h

instance : LosslessSlot Bool := .of_slot .bool (fun _ => rfl) fun _ _ _ => rfl

instance : LosslessSlot Int64 := .of_slot .int (fun _ => rfl) fun _ _ _ => rfl

instance : LosslessSlot Int32 :=
  .of_slot (fun n => .int n.toInt64) (fun _ => rfl) fun _ n _ => Value.toInt32_int n

instance : LosslessSlot Binary64 := .of_slot .float (fun _ => rfl) fun _ _ _ => rfl

instance : LosslessSlot String := .of_slot .text (fun _ => rfl) fun _ _ _ => rfl

instance : LosslessSlot Instant := .of_slot .time (fun _ => rfl) fun _ _ _ => rfl

instance : LosslessSlot NaiveInstant := by
  refine .of_slot (.time ·.utc) (fun v => ?_) fun _ _ _ => rfl
  have hscan : (kind NaiveInstant).scan v =
      if v.isNull then .ok .null else v.toInstant.map .time := rfl
  rw [hscan]
  cases h : v.toInstant <;> simp [FromValue.ofValue, h, Except.map]

instance : LosslessSlot (List UInt8) := .of_raw rfl

instance : LosslessSlot Decimal := .of_raw rfl

instance : LosslessSlot Json := .of_raw rfl

instance : LosslessSlot Value := .of_raw rfl

instance {α : Type} [JsonItem α] : LosslessSlot (JsonArray α) := .of_raw rfl

instance {α : Type} [FromValue α] [LosslessSlot α] : LosslessSlot (Option α) := by
  constructor
  intro v
  cases hv : v.isNull with
  | true =>
      obtain rfl := Value.eq_null hv
      rfl
  | false =>
      rw [FromValue.ofNullable_option hv, ← LosslessSlot.scan_bind]
      cases hslot : (kind α).scan v with
      | error cause => rfl
      | ok slot => exact FromValue.ofNullable_option (SlotKind.scan_not_null hv hslot)

/-- A slot is scanned into itself. -/
theorem SlotKind.scan_scan {k : SlotKind} {v slot : Value} (h : k.scan v = .ok slot) :
    k.scan slot = .ok slot := by
  have hmap {β : Type} {read : Value → Except ConvertError β} {wrap : β → Value}
      (hwrap : ∀ b, (wrap b).isNull = false) (hread : ∀ b, read (wrap b) = .ok b)
      (h : (read v).map wrap = .ok slot) :
      (if slot.isNull then .ok .null else (read slot).map wrap) = .ok slot := by
    cases hv : read v with
    | error cause =>
        rw [hv] at h
        cases h
    | ok b =>
        rw [hv] at h
        cases h
        rw [hwrap, hread]
        rfl
  cases hv : v.isNull with
  | true =>
      obtain rfl := Value.eq_null hv
      cases h
      rfl
  | false =>
      simp only [scan, hv, Bool.false_eq_true, if_false] at h
      cases k with
      | bool => exact hmap (fun _ => rfl) (fun _ => rfl) h
      | int32 => exact hmap (fun _ => rfl) Value.toInt32_int h
      | int64 => exact hmap (fun _ => rfl) (fun _ => rfl) h
      | float64 => exact hmap (fun _ => rfl) (fun _ => rfl) h
      | string => exact hmap (fun _ => rfl) (fun _ => rfl) h
      | time => exact hmap (fun _ => rfl) (fun _ => rfl) h
      | raw =>
          cases h
          simp only [scan, hv, Bool.false_eq_true, if_false]

/-- The types that columns are read as. A document can be of any content: whatever its conversion
does, it takes its column raw. -/
inductive Readable : (α : Type) → [FromValue α] → Prop
  | bool : Readable Bool
  | int32 : Readable Int32
  | int64 : Readable Int64
  | float64 : Readable Binary64
  | string : Readable String
  | instant : Readable Instant
  | naiveInstant : Readable NaiveInstant
  | bytes : Readable (List UInt8)
  | decimal : Readable Decimal
  | json : Readable Json
  | value : Readable Value
  | document {α : Type} [FromValue α] (h : kind α = .raw) : Readable α
  | option {α : Type} [FromValue α] (h : Readable α) : Readable (Option α)

theorem Readable.losslessSlot {α : Type} [FromValue α] (h : Readable α) : LosslessSlot α := by
  induction h with
  | bool | int32 | int64 | float64 | string | instant | naiveInstant => infer_instance
  | bytes | decimal | json | value => infer_instance
  | document h => exact .of_raw h
  | option _ ih => infer_instance

/-- Scanning a column into the slot of a type and converting the slot is converting the column: both
give the same value, or both fail, and for the same cause. Scanning again changes nothing. -/
theorem slots_lose_nothing :
    (∀ (α : Type) [FromValue α], Readable α → ∀ v : Value,
      (kind α).scan v >>= ofNullable (α := α) = ofNullable v) ∧
    ∀ (k : SlotKind) (v slot : Value), k.scan v = .ok slot → k.scan slot = .ok slot := by
  refine ⟨fun α _ h v => ?_, fun k v slot h => SlotKind.scan_scan h⟩
  have := h.losslessSlot
  exact LosslessSlot.scan_bind v

/-- A number that is too large fails in the slot as it does without one, and one that has been read
from a text is scanned again as it is. -/
theorem slot_reads_or_fails_alike :
    (kind (Option (Option Int32))).scan (.int 2147483648) >>=
        ofNullable (α := Option (Option Int32)) =
      ofNullable (.int 2147483648) ∧
    (∃ cause, ofNullable (α := Option (Option Int32)) (.int 2147483648) = .error cause) ∧
    SlotKind.int32.scan (.text "7") = .ok (.int 7) ∧
      SlotKind.int32.scan (.int 7) = .ok (.int 7) := by
  obtain ⟨hlossless, hagain⟩ := slots_lose_nothing
  have hscan : SlotKind.int32.scan (.text "7") = .ok (.int 7) := rfl
  exact ⟨hlossless _ (.option (.option .int32)) _, ⟨_, rfl⟩, hscan, hagain .int32 _ _ hscan⟩

end BoundSql
