import BoundSql.Wire.Bytes
import Mathlib.Algebra.Order.Ring.Int
import Mathlib.Data.List.Induction
import Mathlib.Tactic.Common

/-!
# Big-endian integers read back

Bytes are the digits of a number to the base 256, the most significant one first. A number below
`256 ^ k` has exactly one form of `k` bytes, and so has an integer that two's complement of `k`
bytes holds.
-/
namespace BoundSql.Wire

@[simp] theorem unsigned_append_singleton (bytes : List UInt8) (b : UInt8) :
    unsigned (bytes ++ [b]) = unsigned bytes * 256 + b.toNat := by
  rw [unsigned, List.foldl_append]
  rfl

@[simp] theorem length_unsignedBytes (k n : Nat) : (unsignedBytes k n).length = k := by
  induction k generalizing n with
  | zero => rfl
  | succ k ih => rw [unsignedBytes, List.length_append, ih, List.length_singleton]

theorem unsigned_unsignedBytes {k n : Nat} (h : n < 256 ^ k) :
    unsigned (unsignedBytes k n) = n := by
  induction k generalizing n with
  | zero =>
      have hn : n = 0 := by simpa using h
      rw [hn]
      rfl
  | succ k ih =>
      have hdiv : n / 256 < 256 ^ k := Nat.div_lt_of_lt_mul (by rwa [Nat.mul_comm, ← Nat.pow_succ])
      rw [unsignedBytes, unsigned_append_singleton, ih hdiv, UInt8.toNat_ofNat', Nat.mod_mod]
      exact Nat.div_add_mod' n 256

/-- Bytes are the only form of their number with as many bytes. -/
theorem unsignedBytes_unsigned (bytes : List UInt8) :
    unsignedBytes bytes.length (unsigned bytes) = bytes := by
  induction bytes using List.reverseRecOn with
  | nil => rfl
  | append_singleton bytes b ih =>
      have hb : b.toNat < 256 := b.toNat_lt
      have hdiv : (unsigned bytes * 256 + b.toNat) / 256 = unsigned bytes := by omega
      have hmod : (unsigned bytes * 256 + b.toNat) % 256 = b.toNat := by omega
      rw [List.length_append, List.length_singleton, unsignedBytes, unsigned_append_singleton,
        hdiv, hmod, ih, UInt8.ofNat_toNat]

variable {n : Int} {bytes : List UInt8}

theorem natCast_size (k : Nat) : ((Nat.pow 256 k : Nat) : Int) = 256 ^ k := Int.natCast_pow 256 k

theorem size_pos (k : Nat) : (0 : Int) < 256 ^ k := Int.pow_pos (by decide)

theorem toNat_lt_size {k : Nat} (h : 0 ≤ n) (hlt : n < 256 ^ k) : n.toNat < 256 ^ k := by
  rw [Int.toNat_lt h, Int.natCast_pow]
  exact hlt

theorem unsigned_signedBytes (n : Int) (k : Nat) :
    (unsigned (signedBytes k n) : Int) = n % 256 ^ k := by
  have hnonneg : 0 ≤ n % 256 ^ k := Int.emod_nonneg n (Int.ne_of_gt (size_pos k))
  have hlt : n % 256 ^ k < 256 ^ k := Int.emod_lt_of_pos n (size_pos k)
  rw [signedBytes, natCast_size, unsigned_unsignedBytes (toNat_lt_size hnonneg hlt),
    Int.toNat_of_nonneg hnonneg]

/-- Bytes in two's complement are read as the integer that they hold. -/
theorem signed_eq_of_emod (hlow : -256 ^ bytes.length ≤ 2 * n) (hhigh : 2 * n < 256 ^ bytes.length)
    (h : (unsigned bytes : Int) = n % 256 ^ bytes.length) : signed bytes = n := by
  have hsigned : signed bytes =
      if 2 * (unsigned bytes : Int) < 256 ^ bytes.length then (unsigned bytes : Int)
      else unsigned bytes - 256 ^ bytes.length := by
    rw [signed, natCast_size]
  rw [hsigned, h]
  generalize (256 : Int) ^ bytes.length = m at hlow hhigh
  obtain hn | hn := Int.lt_or_le n 0
  · have hmod : n % m = n + m := by
      rw [← Int.add_emod_right, Int.emod_eq_of_lt (by omega) (by omega)]
    rw [hmod, if_neg (by omega)]
    omega
  · rw [Int.emod_eq_of_lt hn (by omega), if_pos hhigh]

end BoundSql.Wire
