import BoundSql.Text.Digits

/-!
# Scaled decimals

A decimal is a sign, a coefficient below 2⁹⁶ and a scale of at most 28 places. Printing keeps the
scale, so `1.50` and `1.5` are different decimals.
-/
namespace BoundSql

/-- 2⁹⁶; coefficients stay below this number. -/
def Decimal.coefficientLimit : Nat := 79228162514264337593543950336

def Decimal.maxScale : Nat := 28

structure Decimal where
  negative : Bool
  coefficient : Nat
  scale : Nat
  coefficient_lt : coefficient < Decimal.coefficientLimit
  scale_le : scale ≤ Decimal.maxScale
  deriving DecidableEq

namespace Decimal

def ofParts? (negative : Bool) (coefficient scale : Nat) : Option Decimal :=
  if h : coefficient < coefficientLimit ∧ scale ≤ maxScale then
    some ⟨negative, coefficient, scale, h.1, h.2⟩
  else none

def zero : Decimal := ⟨false, 0, 0, by decide, by decide⟩

instance : Inhabited Decimal := ⟨zero⟩

/-- A coefficient with `places` places fewer, half rounding away from zero. -/
def rounded (coefficient places : Nat) : Nat :=
  let unit := Nat.pow 10 places
  (coefficient + unit / 2) / unit

def ofInt64 (n : Int64) : Decimal where
  negative := n.toInt < 0
  coefficient := n.toInt.natAbs
  scale := 0
  coefficient_lt := by
    have h1 := n.le_toInt
    have h2 := n.toInt_lt
    simp only [coefficientLimit]
    omega
  scale_le := by decide

/-- Exactly `scale` digits after the point, at least one before it. -/
def chars (d : Decimal) : List Char :=
  let ds := Text.Digits.padded (d.scale + 1) d.coefficient
  let whole := ds.take (ds.length - d.scale)
  let fraction := ds.drop (ds.length - d.scale)
  (if d.negative then ['-'] else []) ++ whole
    ++ (if fraction.isEmpty then [] else '.' :: fraction)

def toText (d : Decimal) : String := String.ofList d.chars

end Decimal

end BoundSql
