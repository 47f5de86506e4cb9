import BoundSql.Proofs.Digits
import BoundSql.Proofs.Families
import Mathlib.Data.List.Induction

/-!
# Integers as texts

An integer literal is a run of decimal digits, with a sign in front of it or none. Integers are
written as literals. A text is read as an integer exactly if it is a literal between blanks, and
then as the integer that the literal stands for; one outside the range of the type is not read at
all.
-/
namespace BoundSql

namespace Number

open Text.Digits (decimal decimal_ne_nil digitValue intDecimal isDigit isDigit_of_mem_decimal value
  value_decimal)

/-- Decimal digits, the most significant one first, and the number that they stand for. Zeros in
front are allowed. -/
inductive Numeral : List Char → Nat → Prop where
  | digit {d : Nat} (hd : d < 10) : Numeral [Nat.digitChar d] d
  | snoc {cs : List Char} {n d : Nat} (h : Numeral cs n) (hd : d < 10) :
      Numeral (cs ++ [Nat.digitChar d]) (10 * n + d)

/-- The characters of an integer, and the integer. -/
inductive Literal : List Char → Int → Prop where
  | unsigned {cs : List Char} {n : Nat} (h : Numeral cs n) : Literal cs n
  | plus {cs : List Char} {n : Nat} (h : Numeral cs n) : Literal ('+' :: cs) n
  | minus {cs : List Char} {n : Nat} (h : Numeral cs n) : Literal ('-' :: cs) (-n)

variable {cs : List Char} {n : Nat} {z : Int}

theorem isDigit_iff {c : Char} : isDigit c ↔ ∃ d < 10, c = Nat.digitChar d := by
  constructor
  · intro h
    simp only [isDigit, Bool.and_eq_true, decide_eq_true_eq] at h
    refine ⟨c.toNat - 48, by omega, Char.toNat_inj.mp ?_⟩
    rw [Nat.toNat_digitChar_of_lt_ten (by omega)]
    omega
  · rintro ⟨d, hd, rfl⟩
    simp only [isDigit, Bool.and_eq_true, decide_eq_true_eq, Nat.toNat_digitChar_of_lt_ten hd]
    omega

theorem value_snoc {d : Nat} (h : d < 10) :
    value (cs ++ [Nat.digitChar d]) = 10 * value cs + d := by
  rw [value, List.foldl_append, List.foldl_cons, List.foldl_nil, digitValue,
    Nat.toNat_digitChar_of_lt_ten h, Nat.mul_comm, Nat.add_sub_cancel_left]
  rfl

theorem value_digit {d : Nat} (h : d < 10) : value [Nat.digitChar d] = d := by
  rw [← List.nil_append [_], value_snoc h]
  exact Nat.zero_add d

/-- Numerals are the runs of digits, each of one number. -/
theorem numeral_iff : Numeral cs n ↔ cs ≠ [] ∧ (∀ c ∈ cs, isDigit c) ∧ value cs = n := by
  constructor
  · intro h
    induction h with
    | @digit d hd =>
        refine ⟨by simp, ?_, value_digit hd⟩
        simpa using isDigit_iff.mpr ⟨d, hd, rfl⟩
    | @snoc cs n d h hd ih =>
        obtain ⟨-, hdigits, hvalue⟩ := ih
        refine ⟨by simp, fun c hc => ?_, by rw [value_snoc hd, hvalue]⟩
        obtain hc | hc := List.mem_append.mp hc
        · exact hdigits c hc
        · exact isDigit_iff.mpr ⟨d, hd, List.mem_singleton.mp hc⟩
  · rintro ⟨hne, hdigits, rfl⟩
    induction cs using List.reverseRecOn with
    | nil => exact absurd rfl hne
    | append_singleton cs c ih =>
        obtain ⟨d, hd, rfl⟩ := isDigit_iff.mp (hdigits c (by simp))
        by_cases hcs : cs = []
        · subst hcs
          rw [List.nil_append, value_digit hd]
          exact .digit hd
        · rw [value_snoc hd]
          exact .snoc (ih hcs fun c hc => hdigits c (by simp [hc])) hd

theorem numeral_decimal (n : Nat) : Numeral (decimal n) n :=
  numeral_iff.mpr ⟨decimal_ne_nil n, fun _ => isDigit_of_mem_decimal, value_decimal n⟩

/-- An integer is written as one of its literals. -/
theorem literal_intDecimal (z : Int) : Literal (intDecimal z) z := by
  have hmagnitude := numeral_decimal z.natAbs
  rw [intDecimal]
  split
  case isTrue h =>
    have hz : -(z.natAbs : Int) = z := by omega
    have hliteral := Literal.minus hmagnitude
    rwa [hz] at hliteral
  case isFalse h =>
    have hz : (z.natAbs : Int) = z := by omega
    have hliteral := Literal.unsigned hmagnitude
    rwa [hz] at hliteral

/-- The integer of a run of digits, below zero if it stands behind a minus. -/
def signedDigits? (negative : Bool) (cs : List Char) : Option Int :=
  if cs.isEmpty || !cs.all isDigit then none
  else some (if negative then -(value cs : Int) else value cs)

theorem signedDigits?_eq_some_iff {negative : Bool} :
    signedDigits? negative cs = some z ↔
      ∃ n : Nat, Numeral cs n ∧ (if negative then -(n : Int) else n) = z := by
  have hnumeral (n : Nat) :
      Numeral cs n ↔ (cs.isEmpty || !cs.all isDigit) = false ∧ value cs = n := by
    rw [numeral_iff]
    simp [and_assoc]
  rw [signedDigits?]
  simp only [hnumeral]
  cases cs.isEmpty || !cs.all isDigit with
  | true => simp
  | false => simp

theorem parseInt?_eq (cs : List Char) :
    parseInt? cs = signedDigits? (splitSign cs).1 (splitSign cs).2 := by
  fun_cases splitSign cs with
  | case1 ds => rfl
  | case2 ds => rfl
  | case3 hminus hplus =>
      simp only [parseInt?]
      rfl

theorem splitSign_cases (cs : List Char) :
    (∃ ds, cs = '-' :: ds ∧ splitSign cs = (true, ds)) ∨
      (∃ ds, cs = '+' :: ds ∧ splitSign cs = (false, ds)) ∨ splitSign cs = (false, cs) := by
  unfold splitSign
  split
  case h_1 ds => exact .inl ⟨ds, rfl, rfl⟩
  case h_2 ds => exact .inr (.inl ⟨ds, rfl, rfl⟩)
  case h_3 => exact .inr (.inr rfl)

/-- A numeral has no sign. -/
theorem Numeral.splitSign_eq (h : Numeral cs n) : splitSign cs = (false, cs) := by
  have hdigits := (numeral_iff.mp h).2.1
  obtain ⟨ds, rfl, -⟩ | ⟨ds, rfl, -⟩ | heq := splitSign_cases cs
  · exact absurd (hdigits '-' List.mem_cons_self) (by decide)
  · exact absurd (hdigits '+' List.mem_cons_self) (by decide)
  · exact heq

/-- Literals of any length are read as the integers that they stand for, and nothing else is. -/
theorem parseInt?_eq_some_iff : parseInt? cs = some z ↔ Literal cs z := by
  constructor
  · intro h
    rw [parseInt?_eq] at h
    obtain ⟨ds, rfl, hsplit⟩ | ⟨ds, rfl, hsplit⟩ | hsplit := splitSign_cases cs
    all_goals
      rw [hsplit] at h
      obtain ⟨n, hn, rfl⟩ := signedDigits?_eq_some_iff.mp h
    · exact .minus hn
    · exact .plus hn
    · exact .unsigned hn
  · intro h
    cases h with
    | unsigned h =>
        rw [parseInt?_eq, h.splitSign_eq]
        exact signedDigits?_eq_some_iff.mpr ⟨_, h, rfl⟩
    | plus h => exact signedDigits?_eq_some_iff.mpr ⟨_, h, rfl⟩
    | minus h => exact signedDigits?_eq_some_iff.mpr ⟨_, h, rfl⟩

theorem int64?_eq_some_iff {m : Int64} : int64? z = some m ↔ m.toInt = z := by
  rw [int64?]
  constructor
  · intro h
    split at h
    case isTrue hrange =>
      cases h
      exact Int64.toInt_ofInt_of_le (by omega) (by omega)
    case isFalse => cases h
  · rintro rfl
    have hlow := m.le_toInt
    have hhigh := m.toInt_lt
    rw [if_pos (by omega), Int64.ofInt_toInt]

theorem int64?_eq_none (h : z < -2 ^ 63 ∨ 2 ^ 63 ≤ z) : int64? z = none := if_neg (by omega)

end Number

namespace Text

theorem dropWhile_blanks {blanks cs : List Char} (hblanks : ∀ c ∈ blanks, isBlank c) (hne : cs ≠ [])
    (hcs : ∀ c ∈ cs, isBlank c = false) (rest : List Char) :
    (blanks ++ (cs ++ rest)).dropWhile isBlank = cs ++ rest := by
  obtain ⟨c, more, rfl⟩ := List.exists_cons_of_ne_nil hne
  have hc : isBlank c = false := hcs c List.mem_cons_self
  rw [List.dropWhile_append_of_pos hblanks, List.cons_append,
    List.dropWhile_cons_of_neg (by simp [hc])]

theorem trim_between {before cs after : List Char} (hbefore : ∀ c ∈ before, isBlank c)
    (hafter : ∀ c ∈ after, isBlank c) (hne : cs ≠ []) (hcs : ∀ c ∈ cs, isBlank c = false) :
    trim (before ++ cs ++ after) = cs := by
  have hstart := dropWhile_blanks hbefore hne hcs after
  have hend : (cs ++ after).reverse.dropWhile isBlank = cs.reverse := by
    have hdropped := @dropWhile_blanks after.reverse cs.reverse (by simpa using hafter)
      (by simpa using hne) (by simpa using hcs) []
    rwa [List.append_nil, ← List.reverse_append] at hdropped
  rw [trim, trimStart, List.append_assoc, hstart, trimEnd, hend, List.reverse_reverse]

/-- Only blanks are taken away. -/
theorem exists_trim (cs : List Char) : ∃ before after, cs = before ++ trim cs ++ after ∧
    (∀ c ∈ before, isBlank c) ∧ ∀ c ∈ after, isBlank c := by
  have hend (l : List Char) : l = trimEnd l ++ (l.reverse.takeWhile isBlank).reverse := by
    rw [trimEnd, ← List.reverse_append, List.takeWhile_append_dropWhile, List.reverse_reverse]
  refine ⟨cs.takeWhile isBlank, ((trimStart cs).reverse.takeWhile isBlank).reverse, ?_,
    fun c => List.mem_takeWhile_imp, fun c hc => ?_⟩
  · rw [List.append_assoc, trim, ← hend, trimStart, List.takeWhile_append_dropWhile]
  · exact List.mem_takeWhile_imp (List.mem_reverse.mp hc)

end Text

open Number (Literal parseInt?_eq_some_iff int64?_eq_some_iff int64?_eq_none)

/-- A text that is a literal of an integer, with blanks around it or none. -/
def Spells (t : String) (z : Int) : Prop :=
  ∃ before cs after : List Char, t.toList = before ++ cs ++ after ∧
    (∀ c ∈ before, Text.isBlank c) ∧ (∀ c ∈ after, Text.isBlank c) ∧ Literal cs z

namespace Number.Literal

variable {cs : List Char} {z : Int}

theorem ne_nil (h : Literal cs z) : cs ≠ [] := by
  cases h with
  | unsigned h => exact (numeral_iff.mp h).1
  | _ => simp

theorem not_blank (h : Literal cs z) : ∀ c ∈ cs, Text.isBlank c = false := by
  have hdigits {ds : List Char} {n : Nat} (h : Numeral ds n) : ∀ c ∈ ds, Text.isBlank c = false :=
    fun c hc => Text.Digits.isBlank_of_isDigit ((numeral_iff.mp h).2.1 c hc)
  cases h with
  | unsigned h => exact hdigits h
  | plus h => exact List.forall_mem_cons.mpr ⟨by decide, hdigits h⟩
  | minus h => exact List.forall_mem_cons.mpr ⟨by decide, hdigits h⟩

end Number.Literal

theorem spells_iff {t : String} {z : Int} :
    Spells t z ↔ Number.parseInt? (Text.trim t.toList) = some z := by
  rw [parseInt?_eq_some_iff]
  constructor
  · rintro ⟨before, cs, after, ht, hbefore, hafter, hcs⟩
    rw [ht, Text.trim_between hbefore hafter hcs.ne_nil hcs.not_blank]
    exact hcs
  · intro h
    obtain ⟨before, after, ht, hbefore, hafter⟩ := Text.exists_trim t.toList
    exact ⟨before, _, after, ht, hbefore, hafter, h⟩

/-- A text is a number of 64 bits exactly if it spells this number. -/
theorem toInt64_text_eq_ok_iff {t : String} {m : Int64} :
    Value.toInt64 (.text t) = .ok m ↔ Spells t m.toInt := by
  rw [spells_iff, Value.toInt64, Number.parseInt64?]
  cases Number.parseInt? (Text.trim t.toList) with
  | none => exact ⟨nofun, nofun⟩
  | some z =>
      rw [Option.bind_some, Option.some_inj, eq_comm (a := z), ← int64?_eq_some_iff]
      cases Number.int64? z with
      | none => exact ⟨nofun, nofun⟩
      | some n => simp [orMismatch]

/-- However many digits there are, a number outside the range is an error. -/
theorem toInt64_text_of_outside {t : String} {z : Int} (ht : Spells t z)
    (hz : z < -2 ^ 63 ∨ 2 ^ 63 ≤ z) :
    Value.toInt64 (.text t) = .error (.mismatch "text" .int64) := by
  rw [Value.toInt64, Number.parseInt64?, spells_iff.mp ht, Option.bind_some, int64?_eq_none hz]
  rfl

section Narrowing

variable {v : Value} {n : Int64}

theorem toInt32_eq_ok_iff_of_wide (hv : v.toInt64 = .ok n) (m : Int32) :
    v.toInt32 = .ok m ↔ m.toInt = n.toInt := by
  rw [Row.toInt32_eq_ok_iff]
  constructor
  · rintro ⟨wide, hwide, -, hm⟩
    obtain rfl : n = wide := Except.ok.inj (hv.symm.trans hwide)
    exact hm
  · intro hm
    have hlow := m.le_toInt
    have hhigh := m.toInt_lt
    exact ⟨n, hv, by omega, hm⟩

theorem toInt32_eq_error_iff_of_wide (hv : v.toInt64 = .ok n) :
    (∃ cause, v.toInt32 = .error cause) ↔ n.toInt < -2 ^ 31 ∨ 2 ^ 31 ≤ n.toInt := by
  have hnarrow : v.toInt32 =
      if Value.fitsInt32 n then .ok n.toInt32 else .error (.outOfRange n) := by
    rw [Value.toInt32, hv]
    rfl
  have hfits := Row.fitsInt32_iff n
  rw [hnarrow]
  by_cases h : Value.fitsInt32 n
  · have hrange := hfits.mp h
    rw [if_pos h]
    constructor
    · rintro ⟨cause, hcause⟩
      cases hcause
    · intro houtside
      exact absurd houtside (by omega)
  · have houtside := mt hfits.mpr h
    rw [if_neg h]
    exact ⟨fun _ => by omega, fun _ => ⟨_, rfl⟩⟩

end Narrowing

/-- The characters that text files have between numbers. -/
def spacing : List Char := [' ', '\t', '\n', '\r']

/-- An integer that is written as a text and read back between blanks is the same integer; as one of
32 bits it is read exactly if it fits. No text is read as an integer that it does not spell, and an
integer outside the range is not read from any of its texts. -/
theorem integers_survive_text :
    (∀ n : Int64, ∃ text : String, FromValue.ofValue (.int n) = .ok text ∧
      ∀ before after : String,
        (∀ c ∈ before.toList, c ∈ spacing) → (∀ c ∈ after.toList, c ∈ spacing) →
        FromValue.ofValue (.text (before ++ text ++ after)) = (.ok n : Except ConvertError Int64) ∧
        (∀ m : Int32, FromValue.ofValue (.text (before ++ text ++ after)) = .ok m ↔
          m.toInt = n.toInt) ∧
        ((∃ cause, FromValue.ofValue (.text (before ++ text ++ after)) =
            (.error cause : Except ConvertError Int32)) ↔
          n.toInt < -2 ^ 31 ∨ 2 ^ 31 ≤ n.toInt)) ∧
    (∀ (t : String) (z : Int), Spells t z → (z < -2 ^ 63 ∨ 2 ^ 63 ≤ z) →
      ∃ cause, FromValue.ofValue (.text t) = (.error cause : Except ConvertError Int64)) ∧
    ∀ (t : String) (m : Int64), FromValue.ofValue (.text t) = .ok m → Spells t m.toInt := by
  have hblank : ∀ c ∈ spacing, Text.isBlank c := List.all_eq_true.mp rfl
  refine ⟨fun n => ⟨Text.Digits.intText n.toInt, rfl, fun before after hbefore hafter => ?_⟩, ?_,
    fun t m => toInt64_text_eq_ok_iff.mp⟩
  · have hspells : Spells (before ++ Text.Digits.intText n.toInt ++ after) n.toInt := by
      refine ⟨before.toList, _, after.toList, ?_, fun c hc => hblank c (hbefore c hc),
        fun c hc => hblank c (hafter c hc), Number.literal_intDecimal n.toInt⟩
      rw [String.toList_append, String.toList_append, Text.Digits.intText, String.toList_ofList]
    have hwide := toInt64_text_eq_ok_iff.mpr hspells
    exact ⟨hwide, toInt32_eq_ok_iff_of_wide hwide, toInt32_eq_error_iff_of_wide hwide⟩
  · intro t z ht hz
    exact ⟨_, toInt64_text_of_outside ht hz⟩

/-- The least integer, whose magnitude is no integer of 64 bits, and the first one above the range
with a sign and zeros in front. -/
theorem least_integer_survives_text :
    ((FromValue.ofValue (.int Int64.minValue) = (.ok "-9223372036854775808" : Except _ String) ∧
      FromValue.ofValue (.text ("\t" ++ "-9223372036854775808" ++ "\r\n")) =
        (.ok Int64.minValue : Except ConvertError Int64)) ∧
      ∃ cause, FromValue.ofValue (.text ("\t" ++ "-9223372036854775808" ++ "\r\n")) =
        (.error cause : Except ConvertError Int32)) ∧
    ∃ cause, FromValue.ofValue (.text " +009223372036854775808") =
      (.error cause : Except ConvertError Int64) := by
  obtain ⟨hsurvives, houtside, -⟩ := integers_survive_text
  obtain ⟨text, htext, hread⟩ := hsurvives Int64.minValue
  obtain rfl : "-9223372036854775808" = text := by
    have hwritten : FromValue.ofValue (.int Int64.minValue) =
        (.ok (Text.Digits.intText Int64.minValue.toInt) : Except ConvertError String) := rfl
    rw [Text.Digits.intText_eq_toString, htext] at hwritten
    cases hwritten
    rfl
  obtain ⟨hwide, -, hnarrow⟩ := hread "\t" "\r\n" (by simp [spacing]) (by simp [spacing])
  have hspells : Spells " +009223372036854775808" 9223372036854775808 := spells_iff.mpr rfl
  exact ⟨⟨⟨htext, hwide⟩, hnarrow.mpr (by decide)⟩, houtside _ _ hspells (by decide)⟩

end BoundSql
