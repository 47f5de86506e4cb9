import BoundSql.Text.Utf8
import Mathlib.Tactic.Common

/-!
# Reading text back

What is written for a character is read as this character, whatever stands behind it: the first byte
tells how many follow, and neither an overlong form nor a surrogate is ever written.
-/
namespace BoundSql.Text.Utf8

/-- A number below 256 is not changed by going through a byte. -/
theorem toNat_byte {n : Nat} (h : n < 256) : (UInt8.ofNat n).toNat = n := by
  rw [UInt8.toNat_ofNat', Nat.mod_eq_of_lt h]

section Step

variable {n : Nat} (rest : List Nat)

/-- A byte below 128 is its own character. -/
theorem step_one (h : n < 0x80) : step n rest = .char (Char.ofNat n) 1 := by
  rw [step.eq_def, if_pos h]

/-- The two bytes of a character below `0x800` are read as that character. -/
theorem step_two (h : 0x80 ≤ n) (h' : n < 0x800) :
    step (0xC0 + n / 64) ((0x80 + n % 64) :: rest) = .char (Char.ofNat n) 2 := by
  have hfirst : 0xC2 ≤ 0xC0 + n / 64 ∧ 0xC0 + n / 64 ≤ 0xDF := by omega
  have hsecond : 0x80 ≤ 0x80 + n % 64 ∧ 0x80 + n % 64 ≤ 0xBF := by omega
  have hvalue : (0xC0 + n / 64 - 0xC0) * 64 + (0x80 + n % 64 - 0x80) = n := by omega
  have hone : ¬0xC0 + n / 64 < 0x80 := by omega
  simp only [step, isContinuation, hone, hfirst, hsecond, char2, hvalue, if_false, if_true,
    decide_true, Bool.and_self]

/-- The three bytes of a character below `0x10000`, a surrogate excepted. -/
theorem step_three (h : 0x800 ≤ n) (h' : n < 0x10000) (hvalid : n.isValidChar) :
    step (0xE0 + n / 4096) ((0x80 + n / 64 % 64) :: (0x80 + n % 64) :: rest) =
      .char (Char.ofNat n) 3 := by
  have hsecond : secondOfThree (0xE0 + n / 4096) (0x80 + n / 64 % 64) := by
    have hbounds : n < 0xD800 ∨ 0xDFFF < n ∧ n < 0x110000 := hvalid
    unfold secondOfThree isContinuation
    split
    · simp only [Bool.and_eq_true, decide_eq_true_eq]
      omega
    · split
      · simp only [Bool.and_eq_true, decide_eq_true_eq]
        omega
      · simp only [Bool.and_eq_true, decide_eq_true_eq]
        omega
  have hone : ¬0xE0 + n / 4096 < 0x80 := by omega
  have htwo : ¬0xE0 + n / 4096 ≤ 0xDF := by omega
  have hfirst : 0xE0 ≤ 0xE0 + n / 4096 ∧ 0xE0 + n / 4096 ≤ 0xEF := by omega
  have hthird : 0x80 ≤ 0x80 + n % 64 ∧ 0x80 + n % 64 ≤ 0xBF := by omega
  have hvalue : (0xE0 + n / 4096 - 0xE0) * 4096 + (0x80 + n / 64 % 64 - 0x80) * 64 +
      (0x80 + n % 64 - 0x80) = n := by omega
  simp only [step, isContinuation, hone, htwo, hfirst, hsecond, hthird, char3, hvalue, if_false,
    if_true, decide_true, decide_false, Bool.and_self, Bool.and_false, Bool.false_eq_true]

/-- The four bytes of any other character. -/
theorem step_four (h : 0x10000 ≤ n) (h' : n < 0x110000) :
    step (0xF0 + n / 262144)
        ((0x80 + n / 4096 % 64) :: (0x80 + n / 64 % 64) :: (0x80 + n % 64) :: rest) =
      .char (Char.ofNat n) 4 := by
  have hsecond : secondOfFour (0xF0 + n / 262144) (0x80 + n / 4096 % 64) := by
    unfold secondOfFour isContinuation
    split
    · simp only [Bool.and_eq_true, decide_eq_true_eq]
      omega
    · split
      · simp only [Bool.and_eq_true, decide_eq_true_eq]
        omega
      · simp only [Bool.and_eq_true, decide_eq_true_eq]
        omega
  have hone : ¬0xF0 + n / 262144 < 0x80 := by omega
  have htwo : ¬0xF0 + n / 262144 ≤ 0xDF := by omega
  have hthree : ¬0xF0 + n / 262144 ≤ 0xEF := by omega
  have hfirst : 0xF0 ≤ 0xF0 + n / 262144 ∧ 0xF0 + n / 262144 ≤ 0xF4 := by omega
  have hthird : 0x80 ≤ 0x80 + n / 64 % 64 ∧ 0x80 + n / 64 % 64 ≤ 0xBF := by omega
  have hfourth : 0x80 ≤ 0x80 + n % 64 ∧ 0x80 + n % 64 ≤ 0xBF := by omega
  have hvalue : (0xF0 + n / 262144 - 0xF0) * 262144 + (0x80 + n / 4096 % 64 - 0x80) * 4096 +
      (0x80 + n / 64 % 64 - 0x80) * 64 + (0x80 + n % 64 - 0x80) = n := by omega
  simp only [step, isContinuation, hone, htwo, hthree, hfirst, hsecond, hthird, hfourth, char4,
    hvalue, if_false, if_true, decide_true, decide_false, Bool.and_self, Bool.and_false,
    Bool.false_eq_true]

end Step

theorem toNat_lt (c : Char) : c.toNat < 0x110000 := by
  obtain h | ⟨-, h⟩ := c.valid
  · exact Nat.lt_trans h (by decide)
  · exact h

/-- The bytes of a character, and what a reader of the first one sees with anything behind them. -/
theorem step_encodeChar (c : Char) (rest : List UInt8) :
    ∃ b bs, encodeChar c = b :: bs ∧
      step b.toNat (((bs ++ rest).take 3).map UInt8.toNat) = .char c (bs.length + 1) := by
  have hbound : c.toNat < 0x110000 := toNat_lt c
  simp only [encodeChar]
  split
  case isTrue hone =>
    refine ⟨_, _, rfl, ?_⟩
    rw [toNat_byte (by omega), step_one _ hone, Char.ofNat_toNat]
    rfl
  case isFalse hone =>
    split
    case isTrue htwo =>
      refine ⟨_, _, rfl, ?_⟩
      simp only [List.cons_append, List.take_succ_cons, List.map_cons]
      rw [toNat_byte (by omega), toNat_byte (by omega), step_two _ (by omega) htwo,
        Char.ofNat_toNat]
      rfl
    case isFalse htwo =>
      split
      case isTrue hthree =>
        refine ⟨_, _, rfl, ?_⟩
        simp only [List.cons_append, List.take_succ_cons, List.map_cons]
        rw [toNat_byte (by omega), toNat_byte (by omega), toNat_byte (by omega),
          step_three _ (by omega) hthree c.valid, Char.ofNat_toNat]
        rfl
      case isFalse hthree =>
        refine ⟨_, _, rfl, ?_⟩
        simp only [List.cons_append, List.take_succ_cons, List.map_cons]
        rw [toNat_byte (by omega), toNat_byte (by omega), toNat_byte (by omega),
          toNat_byte (by omega), step_four _ (by omega) hbound, Char.ofNat_toNat]
        rfl

/-- The bytes of a character are read in one step, wherever they stand. -/
theorem decodeFrom_encodeChar (index : Nat) (c : Char) (rest : List UInt8) :
    decodeFrom index (encodeChar c ++ rest) =
      (decodeFrom (index + (encodeChar c).length) rest).map (c :: ·) := by
  obtain ⟨b, bs, hbytes, hstep⟩ := step_encodeChar c rest
  rw [hbytes, List.cons_append, decodeFrom]
  simp only [hstep, Nat.add_sub_cancel, List.drop_left, List.length_cons]

theorem decodeFrom_encode (index : Nat) (cs : List Char) :
    decodeFrom index (encode cs) = .ok cs := by
  induction cs generalizing index with
  | nil =>
      rw [encode, List.flatMap_nil, decodeFrom]
  | cons c cs ih =>
      have hcons : encode (c :: cs) = encodeChar c ++ encode cs := List.flatMap_cons
      rw [hcons, decodeFrom_encodeChar, ih]
      rfl

/-- Decoding undoes encoding. -/
theorem decodeText_encodeText (s : String) : decodeText (encodeText s) = .ok s := by
  rw [decodeText, decode, encodeText, decodeFrom_encode]
  exact congrArg Except.ok String.ofList_toList

/-- The encoding is the one of the standard library. -/
theorem encodeChar_eq_utf8EncodeChar (c : Char) : encodeChar c = String.utf8EncodeChar c := by
  have hbound : c.toNat < 0x110000 := toNat_lt c
  have hval : c.val.toNat = c.toNat := rfl
  simp only [encodeChar, String.utf8EncodeChar, hval]
  generalize c.toNat = n at hbound
  by_cases hone : n < 0x80
  · rw [if_pos hone, if_pos (show n ≤ 0x7F by omega)]
  rw [if_neg hone, if_neg (show ¬n ≤ 0x7F by omega)]
  by_cases htwo : n < 0x800
  · have hfirst : n / 64 % 32 + 0xC0 = 0xC0 + n / 64 := by omega
    rw [if_pos htwo, if_pos (show n ≤ 0x7FF by omega), hfirst, Nat.add_comm 0x80]
  rw [if_neg htwo, if_neg (show ¬n ≤ 0x7FF by omega)]
  by_cases hthree : n < 0x10000
  · have hfirst : n / 4096 % 16 + 0xE0 = 0xE0 + n / 4096 := by omega
    rw [if_pos hthree, if_pos (show n ≤ 0xFFFF by omega), hfirst, Nat.add_comm 0x80,
      Nat.add_comm 0x80]
  have hfirst : n / 262144 % 8 + 0xF0 = 0xF0 + n / 262144 := by omega
  rw [if_neg hthree, if_neg (show ¬n ≤ 0xFFFF by omega), hfirst, Nat.add_comm 0x80,
    Nat.add_comm 0x80, Nat.add_comm 0x80]

/-- The bytes of a string are those in which it is stored. -/
theorem toByteArray_encodeText (s : String) : (encodeText s).toByteArray = s.toUTF8 := by
  have hchars : encode s.toList = s.toList.flatMap String.utf8EncodeChar :=
    congrArg (List.flatMap · s.toList) (funext encodeChar_eq_utf8EncodeChar)
  rw [encodeText, hchars]
  exact String.utf8Encode_toList

end BoundSql.Text.Utf8
