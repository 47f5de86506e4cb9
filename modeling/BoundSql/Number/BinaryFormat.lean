/-!
# Binary floating-point formats

A format is given by its precision and the width of its exponent field. Bit patterns are natural
numbers below `2 ^ width`; `unpack` reads one as `± m · 2 ^ e`, and `nearest` rounds an exact
ratio to the nearest pattern, a tie going to the even one.
-/
namespace BoundSql.Number

structure BinaryFormat where
  /-- Significant bits, the hidden one included. -/
  precision : Nat
  exponentBits : Nat

inductive Unpacked where
  /-- The number `± mantissa · 2 ^ exponent`. -/
  | finite (negative : Bool) (mantissa : Nat) (exponent : Int)
  | infinite (negative : Bool)
  | nan
  deriving DecidableEq

/-- An exact nonnegative fraction; the denominator is positive wherever one is built. -/
structure Ratio where
  num : Nat
  den : Nat

namespace Ratio

/-- The ratio times a power of a base. -/
def scale (base : Nat) (r : Ratio) (e : Int) : Ratio :=
  if 0 ≤ e then ⟨r.num * Nat.pow base e.toNat, r.den⟩
  else ⟨r.num, r.den * Nat.pow base (-e).toNat⟩

def mul (a b : Ratio) : Ratio := ⟨a.num * b.num, a.den * b.den⟩

def div (a b : Ratio) : Ratio := ⟨a.num * b.den, a.den * b.num⟩

/-- The nearest natural number, a tie going to the even one. -/
def roundHalfEven (r : Ratio) : Nat :=
  let q := r.num / r.den
  let rest := 2 * (r.num % r.den)
  if r.den < rest || (rest = r.den && q % 2 = 1) then q + 1 else q

/-- The largest `k` with `2 ^ k` at most the ratio, for a positive ratio. -/
def log2 (r : Ratio) : Int :=
  let k : Int := (r.num.log2 : Int) - (r.den.log2 : Int)
  let s := r.scale 2 (-k)
  if s.den ≤ s.num then k else k - 1

end Ratio

namespace BinaryFormat

def binary64 : BinaryFormat := ⟨53, 11⟩

def binary32 : BinaryFormat := ⟨24, 8⟩

variable (F : BinaryFormat)

/-- The exponent of the last place of the smallest numbers. -/
def minExponent : Int := 3 - (Nat.pow 2 (F.exponentBits - 1) : Int) - F.precision

def hiddenBit : Nat := Nat.pow 2 (F.precision - 1)

/-- The pattern of positive infinity; all larger ones without the sign are no numbers. -/
def infinityBits : Nat := (Nat.pow 2 F.exponentBits - 1) * F.hiddenBit

def signBit : Nat := Nat.pow 2 F.exponentBits * F.hiddenBit

def unpack (bits : Nat) : Unpacked :=
  let negative := F.signBit ≤ bits
  let magnitude := bits % F.signBit
  let field := magnitude / F.hiddenBit
  let fraction := magnitude % F.hiddenBit
  if F.infinityBits < magnitude then .nan
  else if magnitude = F.infinityBits then .infinite negative
  else if field = 0 then .finite negative fraction F.minExponent
  else .finite negative (F.hiddenBit + fraction) (F.minExponent + (field - 1))

/-- The pattern, without sign, of the nearest number; from half a step above the largest number
on it is infinity. -/
def nearestMagnitude (r : Ratio) : Nat :=
  if r.num = 0 then 0
  else
    let e := max F.minExponent (r.log2 - (F.precision - 1))
    let q := (r.scale 2 (-e)).roundHalfEven
    min F.infinityBits ((e - F.minExponent).toNat * F.hiddenBit + q)

def nearest (negative : Bool) (r : Ratio) : Nat :=
  (if negative then F.signBit else 0) + F.nearestMagnitude r

/-- A pattern that is no number, with its sign; its fraction field starts with a one. -/
def quietNan (negative : Bool) (fraction : Nat) : Nat :=
  (if negative then F.signBit else 0) + F.infinityBits
    + (F.hiddenBit / 2 + fraction % (F.hiddenBit / 2))

end BinaryFormat

/-- The number from one format in another: nearest, with infinities kept, and the leading part
of the fraction of a pattern that is no number. -/
def convertBits (source target : BinaryFormat) (bits : Nat) : Nat :=
  match source.unpack bits with
  | .finite negative m e => target.nearest negative (Ratio.scale 2 ⟨m, 1⟩ e)
  | .infinite negative => (if negative then target.signBit else 0) + target.infinityBits
  | .nan =>
      let fraction := bits % source.hiddenBit
      let shifted :=
        if target.precision ≤ source.precision then
          fraction / Nat.pow 2 (source.precision - target.precision)
        else fraction * Nat.pow 2 (target.precision - source.precision)
      target.quietNan (source.signBit ≤ bits) shifted

end BoundSql.Number
