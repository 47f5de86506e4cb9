import BoundSql.Text.Blank
import BoundSql.Text.Digits
import Mathlib.Data.List.TakeWhile
import Mathlib.Data.Nat.Digits.Defs
import Mathlib.Tactic.Common

/-!
# Decimal digits

Numbers are written with the digits that the standard library writes, nothing else than digits, and
these are read back as the number. Zeros on the left fill up to a width and change nothing else.
-/
namespace BoundSql.Text.Digits

/-- The digits are those of the standard library. -/
theorem digitChar_eq {d : Nat} (h : d < 10) : digitChar d = Nat.digitChar d := by
  revert d
  decide

/-- So are decimal numbers, which makes the lemmas on `Nat.toDigits` available. -/
theorem decimal_eq_toDigits (n : Nat) : decimal n = Nat.toDigits 10 n := by
  induction n using Nat.strongRecOn with
  | ind n ih =>
      rw [decimal]
      split
      case isTrue h => rw [Nat.toDigits_of_lt_base h, digitChar_eq h]
      case isFalse h =>
        rw [Nat.toDigits_of_base_le (by decide) (Nat.le_of_not_lt h), ih (n / 10) (by omega),
          digitChar_eq (Nat.mod_lt n (by decide))]

/-- The text of an integer is the usual one. -/
theorem intText_eq_toString (n : Int) : intText n = toString n := by
  cases n with
  | ofNat n =>
      rw [intText, intDecimal, if_neg (by simp), decimal_eq_toDigits]
      exact Nat.repr_eq_ofList_toDigits.symm
  | negSucc n =>
      have hstring : toString (Int.negSucc n) = "-" ++ n.succ.repr := rfl
      rw [intText, intDecimal, if_pos (Int.negSucc_lt_zero n), decimal_eq_toDigits,
        Int.natAbs_negSucc, hstring, Nat.repr_eq_ofList_toDigits]
      exact @String.ofList_append ['-'] _

theorem isDigit_of_char_isDigit {c : Char} (h : c.isDigit) : isDigit c := by
  simp only [Char.isDigit, Bool.and_eq_true, decide_eq_true_eq, ge_iff_le,
    UInt32.le_iff_toNat_le] at h
  simp only [isDigit, Bool.and_eq_true, decide_eq_true_eq]
  exact h

theorem isDigit_of_mem_toDigits {n : Nat} {c : Char} (h : c ∈ Nat.toDigits 10 n) : isDigit c :=
  isDigit_of_char_isDigit (Nat.isDigit_of_mem_toDigits (by decide) (by decide) h)

/-- The digits that a number is written with are read back as the number. -/
theorem value_toDigits (n : Nat) : value (Nat.toDigits 10 n) = n := by
  have hvalue (cs : List Char) : value cs = Nat.ofDigitChars 10 cs 0 := by
    unfold value Nat.ofDigitChars digitValue
    congr 1
    funext n c
    rw [Nat.mul_comm]
    rfl
  rw [hvalue, Nat.ofDigitChars_toDigits (by decide) (by decide)]

theorem decimal_ne_nil (n : Nat) : decimal n ≠ [] := by
  rw [decimal]
  split <;> simp

/-- A printed number is read back. -/
theorem value_decimal (n : Nat) : value (decimal n) = n := by
  rw [decimal_eq_toDigits, value_toDigits]

theorem isDigit_of_mem_decimal {n : Nat} {c : Char} (h : c ∈ decimal n) : isDigit c :=
  isDigit_of_mem_toDigits (decimal_eq_toDigits n ▸ h)

/-- Trimming never takes a digit. -/
theorem isBlank_of_isDigit {c : Char} (h : isDigit c) : Text.isBlank c = false := by
  simp only [isDigit, Bool.and_eq_true, decide_eq_true_eq] at h
  simp only [Text.isBlank, Bool.or_eq_false_iff, Bool.and_eq_false_imp, decide_eq_true_eq,
    decide_eq_false_iff_not, beq_eq_false_iff_ne, ne_eq]
  omega

/-- A number that fits is padded to the full width. -/
theorem length_padded {width n : Nat} (hwidth : 0 < width) (h : n < Nat.pow 10 width) :
    (padded width n).length = width := by
  have hlength : (decimal n).length ≤ width := by
    rw [decimal_eq_toDigits]
    exact Nat.toDigits_length 10 n width hwidth h
  simp only [padded, List.length_append, List.length_replicate]
  omega

theorem isDigit_of_mem_padded {width n : Nat} {c : Char} (h : c ∈ padded width n) : isDigit c := by
  rw [padded, List.mem_append] at h
  obtain h | h := h
  · rw [List.eq_of_mem_replicate h]
    decide
  · exact isDigit_of_mem_decimal h

theorem padded_ne_nil (width n : Nat) : padded width n ≠ [] := by
  simp [padded, decimal_ne_nil n]

/-- A padded number starts with a digit, so it is never taken for a sign. -/
theorem exists_digit_padded (width n : Nat) :
    ∃ c cs, padded width n = c :: cs ∧ isDigit c := by
  obtain ⟨c, cs, hcs⟩ := List.exists_cons_of_ne_nil (padded_ne_nil width n)
  exact ⟨c, cs, hcs, isDigit_of_mem_padded (hcs ▸ List.mem_cons_self)⟩

theorem takeWhile_padded (width n : Nat) :
    (padded width n).takeWhile isDigit = padded width n :=
  List.takeWhile_eq_self_iff.mpr fun _ hc => isDigit_of_mem_padded hc

/-- Zeros in front do not change the value. -/
theorem value_padded (width n : Nat) : value (padded width n) = n := by
  have hzeros (k : Nat) :
      (List.replicate k '0').foldl (fun m c => m * 10 + digitValue c) 0 = 0 := by
    induction k with
    | zero => rfl
    | succ k ih => exact ih
  rw [padded, value, List.foldl_append, hzeros]
  exact value_decimal n

end BoundSql.Text.Digits
