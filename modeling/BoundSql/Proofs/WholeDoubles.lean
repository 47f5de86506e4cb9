import BoundSql.Proofs.WireFormat
import Mathlib.Algebra.Order.Field.Rat
import Mathlib.Data.Rat.Cast.Order
import Mathlib.Tactic.NormNum
import Mathlib.Tactic.Ring

/-!
# Doubles in integer columns

What 64 bits denote is written down here as a rational number. Every finite double denotes a
multiple of the smallest positive one, and in these units the tests that a double has to pass before
it is sent as an integer are tests of integers. Together they let through the doubles that denote an
integer of 64 bits, and the column's own range does the rest.
-/
namespace BoundSql

namespace Number.Binary64

open BinaryFormat (binary64)

/-- The number that 64 bits denote, from the top: the sign, eleven bits of exponent and 52 of
mantissa. There is none if all bits of the exponent are set. -/
def denoted? (x : Binary64) : Option ℚ :=
  let sign : Nat := x.bits.toNat / 2 ^ 63
  let exponent : Nat := x.bits.toNat / 2 ^ 52 % 2 ^ 11
  let mantissa : Nat := x.bits.toNat % 2 ^ 52
  if exponent = 2047 then none
  else if exponent = 0 then some ((-1) ^ sign * mantissa * 2 ^ (-1074 : ℤ))
  else some ((-1) ^ sign * (2 ^ 52 + mantissa) * 2 ^ (exponent - 1075 : ℤ))

variable {x y : Binary64} {negative : Bool} {m : Nat} {e : Int}

theorem cast_unitsInOne : (unitsInOne : ℚ) = 2 ^ (-binary64.minExponent) := by
  have hexponent : ((-binary64.minExponent).toNat : ℤ) = -binary64.minExponent := by decide
  unfold unitsInOne
  generalize (-binary64.minExponent).toNat = k at hexponent ⊢
  rw [Nat.pow_eq, Nat.cast_pow, Nat.cast_ofNat, ← hexponent, zpow_natCast]

theorem unitsInOne_pos : (0 : ℚ) < unitsInOne := by
  rw [cast_unitsInOne]
  exact zpow_pos two_pos _

theorem cast_units_div (he : binary64.minExponent ≤ e) :
    (units negative m e : ℚ) / unitsInOne = (if negative then -1 else 1) * m * 2 ^ e := by
  have hpower : (2 : ℚ) ^ (e - binary64.minExponent).toNat =
      2 ^ e * 2 ^ (-binary64.minExponent) := by
    rw [← zpow_natCast, Int.toNat_of_nonneg (by omega), Int.sub_eq_add_neg,
      zpow_add₀ (by norm_num)]
  have hunits : (units negative m e : ℚ) =
      (if negative then -1 else 1) * m * 2 ^ (e - binary64.minExponent).toNat := by
    rw [units]
    cases negative <;> simp
  rw [hunits, cast_unitsInOne, hpower, ← mul_assoc, mul_div_cancel_right₀]
  exact zpow_ne_zero _ (by norm_num)

theorem sign_eq (x : Binary64) :
    (-1 : ℚ) ^ (x.bits.toNat / 2 ^ 63) = if decide (2 ^ 63 ≤ x.bits.toNat) then -1 else 1 := by
  have hbound := x.bits.toNat_lt
  by_cases hnegative : 2 ^ 63 ≤ x.bits.toNat
  case pos =>
    have hsign : x.bits.toNat / 2 ^ 63 = 1 := by omega
    rw [hsign, pow_one, if_pos (decide_eq_true hnegative)]
  case neg =>
    have hsign : x.bits.toNat / 2 ^ 63 = 0 := by omega
    rw [hsign, pow_zero, if_neg (by simpa using hnegative)]

/-- The fields that `unpack` reads, as the bits of which they consist. -/
theorem fields_eq (x : Binary64) :
    x.bits.toNat % 2 ^ 63 / 2 ^ 52 = x.bits.toNat / 2 ^ 52 % 2 ^ 11 ∧
      x.bits.toNat % 2 ^ 63 % 2 ^ 52 = x.bits.toNat % 2 ^ 52 := by
  omega

theorem unpack_eq (x : Binary64) : x.unpack =
    if 2047 * 2 ^ 52 < x.bits.toNat % 2 ^ 63 then .nan
    else if x.bits.toNat % 2 ^ 63 = 2047 * 2 ^ 52 then .infinite (2 ^ 63 ≤ x.bits.toNat)
    else if x.bits.toNat % 2 ^ 63 / 2 ^ 52 = 0 then
      .finite (2 ^ 63 ≤ x.bits.toNat) (x.bits.toNat % 2 ^ 63 % 2 ^ 52) (-1074)
    else
      .finite (2 ^ 63 ≤ x.bits.toNat) (2 ^ 52 + x.bits.toNat % 2 ^ 63 % 2 ^ 52)
        (-1074 + ((x.bits.toNat % 2 ^ 63 / 2 ^ 52 : Nat) - 1)) := rfl

/-- What is unpacked is what the bits denote. -/
theorem denoted?_eq (x : Binary64) : x.denoted? =
    match x.unpack with
    | .finite negative m e => some ((units negative m e : ℚ) / unitsInOne)
    | _ => none := by
  obtain ⟨hfield, hfraction⟩ := fields_eq x
  have hmagnitude : x.bits.toNat % 2 ^ 63 =
      x.bits.toNat / 2 ^ 52 % 2 ^ 11 * 2 ^ 52 + x.bits.toNat % 2 ^ 52 := by omega
  have hfield_lt : x.bits.toNat / 2 ^ 52 % 2 ^ 11 < 2 ^ 11 := Nat.mod_lt _ (by decide)
  have hfraction_lt : x.bits.toNat % 2 ^ 52 < 2 ^ 52 := Nat.mod_lt _ (by decide)
  rw [unpack_eq, denoted?, sign_eq, hfield, hfraction]
  -- The sides read the same three fields; what they make of them does not depend on the bits.
  generalize x.bits.toNat / 2 ^ 52 % 2 ^ 11 = field at *
  generalize x.bits.toNat % 2 ^ 52 = fraction at *
  generalize x.bits.toNat % 2 ^ 63 = magnitude at *
  generalize decide (2 ^ 63 ≤ x.bits.toNat) = negative at *
  by_cases hspecial : field = 2047
  case pos =>
    rw [if_pos hspecial]
    by_cases hnan : 2047 * 2 ^ 52 < magnitude
    · rw [if_pos hnan]
    · have hinfinite : magnitude = 2047 * 2 ^ 52 := by omega
      rw [if_neg hnan, if_pos hinfinite]
  case neg =>
    have hnan : ¬2047 * 2 ^ 52 < magnitude := by omega
    have hinfinite : ¬magnitude = 2047 * 2 ^ 52 := by omega
    rw [if_neg hspecial, if_neg hnan, if_neg hinfinite]
    by_cases hzero : field = 0
    · rw [if_pos hzero, if_pos hzero]
      dsimp only
      rw [cast_units_div (by decide)]
    · have hexponent : (-1074 : ℤ) + (field - 1) = field - 1075 := by ring
      have hleast : binary64.minExponent ≤ field - 1075 := by
        have hminimum : binary64.minExponent = -1074 := by decide
        omega
      rw [if_neg hzero, if_neg hzero]
      dsimp only
      rw [hexponent, cast_units_div hleast, Nat.cast_add, Nat.cast_pow, Nat.cast_ofNat]

variable {p q : ℚ}

theorem finite_of_denoted (h : x.denoted? = some q) : ∃ negative m e,
    x.unpack = .finite negative m e ∧ q = (units negative m e : ℚ) / unitsInOne := by
  rw [denoted?_eq] at h
  split at h
  case h_1 negative m e hunpack => exact ⟨negative, m, e, hunpack, (Option.some.inj h).symm⟩
  case h_2 => cases h

theorem div_unitsInOne_eq {k n : ℤ} : (k : ℚ) / unitsInOne = n ↔ k = n * unitsInOne := by
  rw [div_eq_iff unitsInOne_pos.ne']
  exact_mod_cast Iff.rfl

theorem isFinite_iff : x.isFinite ↔ ∃ q, x.denoted? = some q := by
  rw [isFinite, denoted?_eq]
  cases x.unpack with
  | finite negative m e => exact ⟨fun _ => ⟨_, rfl⟩, fun _ => rfl⟩
  | _ => exact ⟨nofun, nofun⟩

theorem lt_iff (hx : x.denoted? = some p) (hy : y.denoted? = some q) : x.lt y ↔ p < q := by
  obtain ⟨a, m, e, hleft, rfl⟩ := finite_of_denoted hx
  obtain ⟨b, n, k, hright, rfl⟩ := finite_of_denoted hy
  rw [lt, compare?, hleft, hright, div_lt_div_iff_of_pos_right unitsInOne_pos, Int.cast_lt]
  simp [compare_lt_iff_lt]

theorem le_iff (hx : x.denoted? = some p) (hy : y.denoted? = some q) : x.le y ↔ p ≤ q := by
  obtain ⟨a, m, e, hleft, rfl⟩ := finite_of_denoted hx
  obtain ⟨b, n, k, hright, rfl⟩ := finite_of_denoted hy
  rw [le, compare?, hleft, hright, div_le_div_iff_of_pos_right unitsInOne_pos, Int.cast_le,
    le_iff_lt_or_eq]
  simp [compare_lt_iff_lt]

theorem isWhole_iff (hx : x.denoted? = some q) : x.isWhole ↔ ∃ n : ℤ, q = n := by
  obtain ⟨a, m, e, hunpack, rfl⟩ := finite_of_denoted hx
  simp only [isWhole, hunpack, div_unitsInOne_eq, decide_eq_true_eq]
  rw [← Int.dvd_iff_emod_eq_zero, dvd_iff_exists_eq_mul_left]

theorem toInt64_eq {n : ℤ} (hx : x.denoted? = some (n : ℚ)) : x.toInt64 = Int64.ofIntClamp n := by
  obtain ⟨a, m, e, hunpack, hn⟩ := finite_of_denoted hx
  have hunits : units a m e = n * unitsInOne := div_unitsInOne_eq.mp hn.symm
  have hpos : (0 : ℤ) < unitsInOne := by exact_mod_cast unitsInOne_pos
  rw [toInt64, hunpack]
  dsimp only
  rw [hunits, Int.mul_tdiv_cancel _ hpos.ne']

theorem denoted?_of_unpack (h : x.unpack = .finite negative m e) (he : binary64.minExponent ≤ e) :
    x.denoted? = some ((if negative then -1 else 1) * (m : ℚ) * 2 ^ e) := by
  rw [denoted?_eq, h]
  dsimp only
  rw [cast_units_div he]

theorem denoted?_least : (ofInt Int64.minValue.toInt).denoted? = some (-2 ^ 63) := by
  have hunpack : (ofInt Int64.minValue.toInt).unpack = .finite true (2 ^ 52) 11 := by decide +kernel
  rw [denoted?_of_unpack hunpack (by decide)]
  norm_num

/-- The largest integer of 64 bits is no double; the one nearest to it is above the range. -/
theorem denoted?_greatest : (ofInt Int64.maxValue.toInt).denoted? = some (2 ^ 63) := by
  have hunpack : (ofInt Int64.maxValue.toInt).unpack = .finite false (2 ^ 52) 11 := by
    decide +kernel
  rw [denoted?_of_unpack hunpack (by decide)]
  norm_num

end Number.Binary64

namespace Wire

open Number (Binary64)
open Number.Binary64

variable {type : ColumnType} {f : IntegerFormat} {x : Binary64} {n : Int64}

/-- The tests let a double through exactly if it denotes an integer of 64 bits, and then the cast
neither cuts off nor saturates. -/
theorem wholeInt64?_eq_some_iff : wholeInt64? x = some n ↔ x.denoted? = some (n.toInt : ℚ) := by
  constructor
  · intro h
    unfold wholeInt64? at h
    split at h
    case isTrue hguard =>
      cases h
      simp only [Bool.and_eq_true, isFinite_iff] at hguard
      obtain ⟨⟨⟨⟨q, hq⟩, hwhole⟩, hlow⟩, hhigh⟩ := hguard
      obtain ⟨k, rfl⟩ := (isWhole_iff hq).mp hwhole
      have hlow' : -2 ^ 63 ≤ k := by exact_mod_cast (le_iff denoted?_least hq).mp hlow
      have hhigh' : k < 2 ^ 63 := by exact_mod_cast (lt_iff hq denoted?_greatest).mp hhigh
      rw [toInt64_eq hq, hq,
        Int64.toInt_ofIntClamp (by rwa [Int64.toInt_minValue])
          (by rw [Int64.toInt_maxValue]; omega)]
    case isFalse => cases h
  · intro h
    have hwhole : x.isWhole := (isWhole_iff h).mpr ⟨n.toInt, rfl⟩
    have hlow : (ofInt Int64.minValue.toInt).le x :=
      (le_iff denoted?_least h).mpr (by exact_mod_cast n.le_toInt)
    have hhigh : x.lt (ofInt Int64.maxValue.toInt) :=
      (lt_iff h denoted?_greatest).mpr (by exact_mod_cast n.toInt_lt)
    rw [wholeInt64?, isFinite_iff.mpr ⟨_, h⟩, hwhole, hlow, hhigh, toInt64_eq h,
      Int64.ofIntClamp_toInt]
    rfl

/-- The double denotes an integer that the type can store. -/
def IntegerFormat.HasRoomFor (f : IntegerFormat) (x : Binary64) : Prop :=
  ∃ n : ℤ, x.denoted? = some (n : ℚ) ∧ f.low ≤ n ∧ n < f.bound

/-- Every integer that a type can store is one of 64 bits. -/
theorem toInt_ofInt_of_format (hf : type.integerFormat? = some f) {n : ℤ} (hlow : f.low ≤ n)
    (hbound : n < f.bound) : (Int64.ofInt n).toInt = n := by
  have hrange : -2 ^ 63 ≤ n ∧ n < 2 ^ 63 := by
    cases type <;> cases hf <;> dsimp only at hlow hbound <;> omega
  exact Int64.toInt_ofInt_of_le hrange.1 hrange.2

theorem bindFloat_eq (htype : type ∈ [.int2, .int4, .int8]) (x : Binary64) :
    bindFloat x type =
      match wholeInt64? x with
      | some n => bindInt n type
      | none => .error (.notWhole x type) := by
  simp only [List.mem_cons, List.not_mem_nil, or_false] at htype
  obtain rfl | rfl | rfl := htype <;> rfl

theorem bind_float_of_whole (htype : type ∈ [.int2, .int4, .int8])
    (h : x.denoted? = some (n.toInt : ℚ)) : bind type (.float x) = bind type (.int n) := by
  simp only [bind, bindFloat_eq htype, wholeInt64?_eq_some_iff.mpr h]

theorem bind_float_of_not_whole (htype : type ∈ [.int2, .int4, .int8])
    (h : ∀ n : Int64, x.denoted? ≠ some (n.toInt : ℚ)) :
    bind type (.float x) = .error (.notWhole x type) := by
  have hwhole : wholeInt64? x = none :=
    Option.eq_none_iff_forall_ne_some.mpr fun n hn => h n (wholeInt64?_eq_some_iff.mp hn)
  rw [bind, bindFloat_eq htype, hwhole]
  rfl

/-- What is sent of a double are the bytes of the integer that it denotes. -/
theorem bind_float_eq_ok {bytes : Option (List UInt8)} (htype : type ∈ [.int2, .int4, .int8]) :
    bind type (.float x) = .ok bytes ↔
      ∃ n : Int64, x.denoted? = some (n.toInt : ℚ) ∧ bind type (.int n) = .ok bytes := by
  constructor
  · intro h
    by_cases hwhole : ∃ n : Int64, x.denoted? = some (n.toInt : ℚ)
    case pos =>
      obtain ⟨n, hn⟩ := hwhole
      exact ⟨n, hn, (bind_float_of_whole htype hn).symm.trans h⟩
    case neg =>
      rw [bind_float_of_not_whole htype (not_exists.mp hwhole)] at h
      cases h
  · rintro ⟨n, hn, h⟩
    rw [bind_float_of_whole htype hn, h]

/-- An integer is sent in the format of the type, and only then if the type can store it. -/
theorem bind_int_eq_ok {bytes : Option (List UInt8)} (hf : type.integerFormat? = some f) :
    bind type (.int n) = .ok bytes ↔
      ∃ bs, bytes = some bs ∧ f.low ≤ n.toInt ∧ n.toInt < f.bound ∧ bs.length = f.width ∧
        (unsigned bs : ℤ) = n.toInt % 256 ^ f.width := by
  simp only [← bindInt_eq_ok hf]
  rw [bind]
  cases bindInt n type with
  | error cause => simp [Except.map]
  | ok bs => simp [Except.map, eq_comm]

theorem exists_bind_float_iff (htype : type ∈ [.int2, .int4, .int8])
    (hf : type.integerFormat? = some f) :
    (∃ bytes, bind type (.float x) = .ok bytes) ↔ f.HasRoomFor x := by
  constructor
  · rintro ⟨bytes, h⟩
    obtain ⟨n, hn, hint⟩ := (bind_float_eq_ok htype).mp h
    obtain ⟨-, -, hlow, hbound, -⟩ := (bind_int_eq_ok hf).mp hint
    exact ⟨n.toInt, hn, hlow, hbound⟩
  · rintro ⟨n, hn, hlow, hbound⟩
    have hint := toInt_ofInt_of_format hf hlow hbound
    refine ⟨some (signedBytes f.width n), (bind_float_eq_ok htype).mpr ⟨.ofInt n, ?_, ?_⟩⟩
    · rw [hint, hn]
    · rw [bind_int_eq_ok hf, hint]
      exact ⟨_, rfl, hlow, hbound, length_unsignedBytes _ _, unsigned_signedBytes _ _⟩

/-- A double goes into an integer column if it denotes an integer that the column's type can store,
and is refused otherwise. What is sent are the bytes of just this integer, and it is what the column
gives back: nothing is rounded, cut off or moved into the range. -/
theorem doubles_are_bound_as_whole_numbers (htype : type ∈ [.int2, .int4, .int8])
    (hf : type.integerFormat? = some f) (x : Binary64) :
    ((∃ bytes, bind type (.float x) = .ok bytes) ↔ f.HasRoomFor x) ∧
      ((∃ cause, bind type (.float x) = .error cause) ↔ ¬f.HasRoomFor x) ∧
      ∀ bytes, bind type (.float x) = .ok bytes →
        ∃ (n : Int64) (bs : List UInt8), x.denoted? = some (n.toInt : ℚ) ∧ bytes = some bs ∧
          bs.length = f.width ∧ (unsigned bs : ℤ) = n.toInt % 256 ^ f.width ∧
          decode type bytes = .ok (.int n) := by
  have hsent : (∃ bytes, bind type (.float x) = .ok bytes) ↔ f.HasRoomFor x :=
    exists_bind_float_iff htype hf
  refine ⟨hsent, ?_, fun bytes h => ?_⟩
  · rw [← hsent]
    cases bind type (.float x) <;> simp
  · obtain ⟨n, hn, hint⟩ := (bind_float_eq_ok htype).mp h
    obtain ⟨bs, rfl, hlow, hbound, hlength, hbytes⟩ := (bind_int_eq_ok hf).mp hint
    have hcarried : Carried type (.int n) (some bs) (.int n) :=
      .int hf hlow hbound hlength hbytes
    have hmem : type ∈ carriedTypes :=
      (by decide : [ColumnType.int2, .int4, .int8] ⊆ carriedTypes) htype
    exact ⟨n, bs, hn, rfl, hlength, hbytes, (hcarried.sent_and_read hmem).2⟩

/-- The least integer of two bytes is sent, and two to the 63rd is refused. -/
theorem least_smallint_is_bound_from_a_double :
    (bind .int2 (.float ⟨0xC0E0000000000000⟩) = .ok (some [128, 0]) ∧
      decode .int2 (some [128, 0]) = .ok (.int (-32768))) ∧
    ∃ cause, bind .int8 (.float ⟨0x43E0000000000000⟩) = .error cause := by
  have hleast : denoted? ⟨0xC0E0000000000000⟩ = some ((-32768 : ℤ) : ℚ) := by
    have hunpack : unpack ⟨0xC0E0000000000000⟩ = .finite true (2 ^ 52) (-37) := by decide
    rw [denoted?_of_unpack hunpack (by decide)]
    norm_num
  have hlarge : denoted? ⟨0x43E0000000000000⟩ = some ((2 ^ 63 : ℤ) : ℚ) := by
    have hunpack : unpack ⟨0x43E0000000000000⟩ = .finite false (2 ^ 52) 11 := by decide
    rw [denoted?_of_unpack hunpack (by decide)]
    norm_num
  obtain ⟨hsent, -, hread⟩ :=
    @doubles_are_bound_as_whole_numbers .int2 _ (by decide) rfl ⟨0xC0E0000000000000⟩
  obtain ⟨-, hrefused, -⟩ :=
    @doubles_are_bound_as_whole_numbers .int8 _ (by decide) rfl ⟨0x43E0000000000000⟩
  refine ⟨?_, hrefused.mpr ?_⟩
  · obtain ⟨bytes, h⟩ := hsent.mpr ⟨-32768, hleast, by decide, by decide⟩
    obtain ⟨n, bs, hn, rfl, hlength, hbytes, hdecode⟩ := hread bytes h
    have hint : n.toInt = -32768 := by exact_mod_cast Option.some.inj (hn.symm.trans hleast)
    have hunsigned : unsigned bs = 32768 :=
      Int.natCast_inj.mp (hbytes.trans (by rw [hint]; decide))
    have hbs : bs = [128, 0] := by
      rw [← unsignedBytes_unsigned bs, hlength, hunsigned]
      decide
    have hn' : n = -32768 := Int64.toInt_inj.mp hint
    rw [hbs] at h hdecode
    rw [hn'] at hdecode
    exact ⟨h, hdecode⟩
  · rintro ⟨n, hn, -, hbound⟩
    have hpower : n = 2 ^ 63 := by exact_mod_cast Option.some.inj (hn.symm.trans hlarge)
    exact absurd hbound (by rw [hpower]; decide)

end Wire

end BoundSql
