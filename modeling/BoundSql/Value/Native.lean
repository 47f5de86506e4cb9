import BoundSql.Decimal.Basic
import BoundSql.Text.Uuid
import BoundSql.Value.Basic

/-!
# Values from native ones

Integers widen, singles become the doubles they are, a date is its first instant. Decimals and
UUIDs travel as text, so that no digit is lost. `none` is NULL.
-/
namespace BoundSql

open Number (Binary32 Binary64)
open Calendar (Date Instant)

/-- Native types whose values can be bound. -/
class ToValue (α : Type) where
  toValue : α → Value

export ToValue (toValue)

instance : ToValue Value := ⟨id⟩
instance : ToValue Bool := ⟨.bool⟩
instance : ToValue Int8 := ⟨fun n => .int n.toInt64⟩
instance : ToValue Int16 := ⟨fun n => .int n.toInt64⟩
instance : ToValue Int32 := ⟨fun n => .int n.toInt64⟩
instance : ToValue Int64 := ⟨.int⟩
instance : ToValue UInt8 := ⟨fun n => .int (Int64.ofNat n.toNat)⟩
instance : ToValue UInt16 := ⟨fun n => .int (Int64.ofNat n.toNat)⟩
instance : ToValue UInt32 := ⟨fun n => .int (Int64.ofNat n.toNat)⟩
instance : ToValue Binary32 := ⟨fun x => .float (Binary64.ofBinary32 x)⟩
instance : ToValue Binary64 := ⟨.float⟩
instance : ToValue String := ⟨.text⟩
instance : ToValue (List UInt8) := ⟨.bytes⟩
instance : ToValue Instant := ⟨.time⟩
instance : ToValue Json := ⟨.json⟩
instance : ToValue Uuid := ⟨fun u => .text u.toText⟩
instance : ToValue Decimal := ⟨fun d => .text d.toText⟩

instance : ToValue Date :=
  ⟨fun d => .time ((Instant.ofParts? (d.toDays * 86400) 0).getD Instant.epoch)⟩

instance {α : Type} [ToValue α] : ToValue (Option α) :=
  ⟨fun
    | some a => toValue a
    | none => .null⟩

end BoundSql
