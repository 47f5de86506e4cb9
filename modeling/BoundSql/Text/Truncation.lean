/-!
# Cutting a text at a byte limit

A text is cut only where a character of its UTF-8 form starts or the text ends. `lastBoundary` goes
back from the limit, one byte at a time, to such a position, and `cut` keeps what stands before it.
-/
namespace BoundSql.Text

/-- The last byte position up to `i` at which no character of `s` is torn apart. -/
def lastBoundary (s : String) : Nat → Nat
  | 0 => 0
  | i + 1 => if String.Pos.Raw.isValid s ⟨i + 1⟩ then i + 1 else lastBoundary s i

theorem isValid_lastBoundary (s : String) (i : Nat) :
    String.Pos.Raw.IsValid s ⟨lastBoundary s i⟩ := by
  induction i with
  | zero => exact String.Pos.Raw.isValid_zero
  | succ i ih =>
      rw [lastBoundary]
      split
      case isTrue h => exact String.Pos.Raw.isValid_eq_true_iff.mp h
      case isFalse => exact ih

/-- The front of a text within the limit. A text is taken apart at a boundary only, so the cut needs
the proof that the search ends at one. -/
def cut (limit : Nat) (s : String) : String :=
  if s.utf8ByteSize ≤ limit then s
  else (s.sliceTo ⟨⟨lastBoundary s limit⟩, isValid_lastBoundary s limit⟩).copy

/-- A text over the limit is cut and ends in three dots. -/
def truncated (limit : Nat) (s : String) : String :=
  if s.utf8ByteSize ≤ limit then s else cut limit s ++ "..."

end BoundSql.Text
