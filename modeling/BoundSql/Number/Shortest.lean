import BoundSql.Number.Binary64
import BoundSql.Text.Digits

/-!
# The shortest decimal that reads back

Among the decimals that round to a given double, `shortest` takes one with the fewest digits, and
of those the nearest; which of two equally near ones is for the caller to say. It walks down the
powers of ten from above the number: the first grid that has a point in the rounding interval
decides.
-/
namespace BoundSql.Number

/-- The number `digits · 10 ^ exponent`. -/
structure ShortDecimal where
  digits : Nat
  exponent : Int
  deriving DecidableEq

/-- How a number half way between two neighbours is rounded. -/
inductive Tie where
  | up
  | toEven
  deriving DecidableEq, Repr

/-- The neighbour for a number half way between `below` and `below + 1`. -/
def Tie.choose (tie : Tie) (below : Nat) : Nat :=
  match tie with
  | up => below + 1
  | toEven => if below % 2 = 0 then below else below + 1

/-- The numbers that round to a positive double, in quarters of its last place: the ends belong
to the interval exactly if `closed`. -/
structure RoundingInterval where
  low : Nat
  value : Nat
  high : Nat
  closed : Bool
  /-- Exponent of two of the unit that the three numbers count. -/
  exponent : Int

/-- Below a power of two the spacing halves, so the lower end is only a quarter away. -/
def RoundingInterval.of (mantissa : Nat) (exponent : Int) : RoundingInterval where
  low :=
    if mantissa = BinaryFormat.binary64.hiddenBit
        ∧ BinaryFormat.binary64.minExponent < exponent then 4 * mantissa - 1
    else 4 * mantissa - 2
  value := 4 * mantissa
  high := 4 * mantissa + 2
  closed := mantissa % 2 = 0
  exponent := exponent - 2

/-- Whether `n` times the grid step `step`, over the interval's unit `unit`, lies inside. -/
def RoundingInterval.contains (I : RoundingInterval) (unit step n : Nat) : Bool :=
  let x := n * step
  if I.closed then I.low * unit ≤ x && x ≤ I.high * unit
  else I.low * unit < x && x < I.high * unit

/-- The grid point nearest to the value among its two neighbours that lie in the interval. -/
def RoundingInterval.onGrid? (I : RoundingInterval) (tie : Tie) (k : Int) : Option Nat :=
  let unit := Nat.pow 2 I.exponent.toNat * Nat.pow 10 (-k).toNat
  let step := Nat.pow 2 (-I.exponent).toNat * Nat.pow 10 k.toNat
  let v := I.value * unit
  let below := v / step
  let above := below + 1
  let belowIn := I.contains unit step below
  let aboveIn := I.contains unit step above
  if belowIn && aboveIn then
    some (match compare (v - below * step) (above * step - v) with
      | .lt => below
      | .gt => above
      | .eq => tie.choose below)
  else if belowIn then some below
  else if aboveIn then some above
  else none

/-- Try the grids `10 ^ k`, `10 ^ (k - 1)`, …; the last one tried is taken in any case. -/
def RoundingInterval.search (I : RoundingInterval) (tie : Tie) : Nat → Int → ShortDecimal
  | 0, k => ⟨(I.onGrid? tie k).getD 0, k⟩
  | fuel + 1, k =>
      match I.onGrid? tie k with
      | some n => ⟨n, k⟩
      | none => I.search tie fuel (k - 1)

/-- The shortest decimal for the positive number `mantissa · 2 ^ exponent`. The search starts at
a power of ten above the number; seventeen digits always suffice. -/
def shortest (tie : Tie) (mantissa : Nat) (exponent : Int) : ShortDecimal :=
  let top : Int := ((mantissa.log2 : Int) + exponent) * 30103 / 100000 + 2
  (RoundingInterval.of mantissa exponent).search tie 21 top

end BoundSql.Number
