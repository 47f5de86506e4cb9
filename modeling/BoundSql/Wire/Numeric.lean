import BoundSql.Decimal.Basic
import BoundSql.Wire.Bytes

/-!
# Numerics on the wire

A numeric is a run of digits in base 10000 with the power of the first of them, a sign and the
number of decimal places to show.
-/
namespace BoundSql.Wire

/-- Base-10000 digits, most significant first. -/
def groupsOf (n : Nat) : List Nat :=
  if n < 10000 then [n] else groupsOf (n / 10000) ++ [n % 10000]
termination_by n

structure Numeric where
  negative : Bool
  /-- The first digit counts 10000 to this power. -/
  weight : Int
  scale : Nat
  groups : List Nat

namespace Numeric

/-- Zeros at the end go if they stand behind the point. -/
def trimmed (weight : Int) (groups : List Nat) : List Nat :=
  if weight < 0 then groups
  else
    let whole := (weight + 1).toNat
    groups.take whole ++ ((groups.drop whole).reverse.dropWhile (· = 0)).reverse

/-- The coefficient is first brought to a multiple of four places. -/
def ofDecimal (d : Decimal) : Numeric :=
  let fractionGroups := (d.scale + 3) / 4
  let groups := groupsOf (d.coefficient * Nat.pow 10 (fractionGroups * 4 - d.scale))
  let weight : Int := (groups.length : Int) - fractionGroups - 1
  ⟨d.negative, weight, d.scale, trimmed weight groups⟩

def bytes (n : Numeric) : List UInt8 :=
  unsignedBytes 2 n.groups.length ++ signedBytes 2 n.weight
    ++ unsignedBytes 2 (if n.negative then 0x4000 else 0) ++ unsignedBytes 2 n.scale
    ++ n.groups.flatMap (unsignedBytes 2)

/-- Read `count` digits; bytes behind them are not looked at. -/
def readGroups : Nat → List UInt8 → Option (List Nat)
  | 0, _ => some []
  | count + 1, a :: b :: rest => (readGroups count rest).map (unsigned [a, b] :: ·)
  | _ + 1, _ => none

/-- No numeric: too few bytes, or a sign that stands for a value without digits. -/
def ofBytes? (bytes : List UInt8) : Option Numeric := do
  if bytes.length < 8 then none
  let sign := unsigned ((bytes.drop 4).take 2)
  if 0xC000 ≤ sign then none
  let groups ← readGroups (unsigned (bytes.take 2)) (bytes.drop 8)
  return ⟨sign = 0x4000, signed ((bytes.drop 2).take 2), unsigned ((bytes.drop 6).take 2), groups⟩

/-- The whole part, unless it is out of range. At most seven digits may be left unwritten, even
of a zero. -/
def whole? (n : Numeric) : Option Nat := do
  let count := (n.weight + 1).toNat
  let written ← (n.groups.take count).foldlM
    (fun c g => if c * 10000 + g < Decimal.coefficientLimit then some (c * 10000 + g) else none) 0
  let unwritten := count - n.groups.length
  if unwritten ≤ 7 && written * Nat.pow 10000 unwritten < Decimal.coefficientLimit then
    return written * Nat.pow 10000 unwritten
  else none

/-- Drop zeros at the end of `scale` places. -/
def stripZeros : Nat → Nat → Nat × Nat
  | 0, c => (c, 0)
  | scale + 1, c => if c % 10 = 0 then stripZeros scale (c / 10) else (c, scale + 1)

/-- The digit that ends at a place, as a coefficient with its scale. Seven digits behind the point
count in full, and the eighth rounds. -/
def placed (g place : Nat) : Nat × Nat :=
  if place ≤ Decimal.maxScale then stripZeros place g
  else if place = Decimal.maxScale + 4 ∧ 5000 ≤ g then (1, Decimal.maxScale)
  else (0, 0)

/-- The digits behind the point, each with its scale. -/
def fraction (n : Numeric) : List (Nat × Nat) :=
  let skipped := (-n.weight - 1).toNat
  (n.groups.drop (n.weight + 1).toNat).mapIdx fun i g => placed g (4 * (i + 1 + skipped))

/-- A coefficient with `places` places fewer, a half going to the even neighbour. -/
def roundedToEven (c places : Nat) : Nat :=
  let unit := Nat.pow 10 places
  let q := c / unit
  let twice := 2 * (c % unit)
  if unit < twice || (twice = unit && q % 2 = 1) then q + 1 else q

/-- The number with as many places as fit, and no more than the last argument. -/
def fitting? (c scale : Nat) : Nat → Option (Nat × Nat)
  | 0 =>
      let q := roundedToEven c scale
      if q < Decimal.coefficientLimit then some (q, 0) else none
  | places + 1 =>
      let q := roundedToEven c (scale - (places + 1))
      if q < Decimal.coefficientLimit then some (q, places + 1) else fitting? c scale places

/-- The sum of two numbers, each a coefficient with its scale. -/
def sum? (x y : Nat × Nat) : Option (Nat × Nat) :=
  let scale := max x.2 y.2
  fitting? (x.1 * Nat.pow 10 (scale - x.2) + y.1 * Nat.pow 10 (scale - y.2)) scale scale

/-- Add zeros up to `missing` more places, as far as they fit. -/
def padZeros : Nat → Nat → Nat → Nat × Nat
  | 0, c, scale => (c, scale)
  | missing + 1, c, scale =>
      if c * 10 < Decimal.coefficientLimit then padZeros missing (c * 10) (scale + 1)
      else (c, scale)

/-- The same number with `target` places, half rounding away from zero. -/
def rescaled (target c scale : Nat) : Nat × Nat :=
  if target < scale then (Decimal.rounded c (scale - target), target)
  else if c = 0 then (0, target)
  else padZeros (target - scale) c scale

/-- The digits are added up from the left, and each sum is rounded if it has to be. -/
def toDecimal? (n : Numeric) : Option Decimal := do
  let (c, scale) ← n.fraction.foldlM sum? (← n.whole?, 0)
  let (c, scale) := rescaled (min n.scale Decimal.maxScale) c scale
  Decimal.ofParts? n.negative c scale

end Numeric

def decimalBytes (d : Decimal) : List UInt8 :=
  if d.coefficient = 0 then List.replicate 8 0 else (Numeric.ofDecimal d).bytes

def decimalOf? (bytes : List UInt8) : Option Decimal :=
  (Numeric.ofBytes? bytes).bind Numeric.toDecimal?

end BoundSql.Wire
