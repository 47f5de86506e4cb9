import BoundSql.Decimal.Basic
import BoundSql.Number.Binary64

/-!
# Decimals from doubles

A whole number is taken as it is. A fraction `m / 2 ^ k` is turned into `c / 10 ^ s` step by step,
each step losing the last place only when the coefficient has no room left. Then the digits beyond
a double's precision are rounded away and trailing zeros are dropped.
-/
namespace BoundSql.Decimal

open Number (Binary64)

/-- Trade `n` factors 1/2 of a coefficient with a scale for factors 5. -/
def absorbHalves : Nat → Nat → Nat → Nat × Nat
  | 0, c, scale => (c, scale)
  | n + 1, c, scale =>
      if c % 2 = 0 then absorbHalves n (c / 2) (scale - 1)
      else if c * 5 < coefficientLimit then absorbHalves n (c * 5) scale
      else absorbHalves n (c / 2) (scale - 1)

/-- Drop `n` places, rounding at each; once nothing is left the number is zero without places. -/
def dropPlaces : Nat → Nat → Nat → Nat × Nat
  | 0, c, scale => (c, scale)
  | n + 1, c, scale => if c / 10 = 0 then (0, 0) else dropPlaces n (rounded c 1) (scale - 1)

/-- Round places away while the coefficient is at least 2⁵². -/
def dropExcess : Nat → Nat → Nat × Nat
  | c, 0 => (c, 0)
  | c, scale + 1 => if 4503599627370496 ≤ c then dropExcess (rounded c 1) scale else (c, scale + 1)

def dropZeros : Nat → Nat → Nat × Nat
  | c, 0 => (c, 0)
  | c, scale + 1 => if c % 10 = 0 then dropZeros (c / 10) scale else (c, scale + 1)

/-- The decimal for a double, if the double is finite and within range. -/
def ofBinary64? (x : Binary64) : Option Decimal :=
  match x.unpack with
  | .finite negative 0 _ => ofParts? negative 0 0
  | .finite negative m (.ofNat e) => ofParts? negative (m * Nat.pow 2 e) 0
  | .finite negative m (.negSucc k) =>
      let (c, scale) := absorbHalves (k + 1) m (k + 1)
      let (c, scale) := dropPlaces (scale - maxScale) c scale
      let (c, scale) := dropExcess c scale
      let (c, scale) := dropZeros c scale
      ofParts? negative c scale
  | _ => none

end BoundSql.Decimal
