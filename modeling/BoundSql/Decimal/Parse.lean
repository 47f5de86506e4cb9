import BoundSql.Decimal.Basic

/-!
# Reading decimals

Digits are read from the left, with `_` allowed after the first of them and one point. Where
digits no longer fit, behind the point, the first of them only rounds: half goes up, and the
others have no effect. Before the point it is an overflow. An exponent moves the point.
-/
namespace BoundSql.Decimal

open Text.Digits (isDigit digitValue)

/-- What has been read so far. -/
structure Reading where
  coefficient : Nat := 0
  scale : Nat := 0
  point : Bool := false
  anyDigit : Bool := false

/-- From here on a coefficient and one more digit may exceed a word of 64 bits. -/
def longCoefficient : Nat := 1844674407370954906

/-- The digit that rounds, when `rest` no longer fits. A `_` in front of it is skipped if the
coefficient was long before its last digit, and counts as a zero otherwise. -/
def Reading.roundingDigit? (r : Reading) (rest : List Char) : Option Nat :=
  if rest.all (fun c => isDigit c || c = '_') then
    let ds := if longCoefficient ≤ r.coefficient / 10 then rest.dropWhile (· = '_') else rest
    match ds with
    | [] => some 0
    | c :: _ => some (if c = '_' then 0 else digitValue c)
  else none

/-- Rounding up can need one place less. -/
def Reading.roundedAt? (r : Reading) (rest : List Char) : Option (Nat × Nat) := do
  let digit ← r.roundingDigit? rest
  let n := if 5 ≤ digit then r.coefficient + 1 else r.coefficient
  if n < coefficientLimit then return (n, r.scale)
  else if r.scale = 0 then none
  else return (rounded n 1, r.scale - 1)

def Reading.run (r : Reading) : List Char → Option (Nat × Nat)
  | [] => if r.anyDigit then some (r.coefficient, r.scale) else none
  | c :: cs =>
      if r.point && maxScale ≤ r.scale then r.roundedAt? (c :: cs)
      else if isDigit c then
        let next := r.coefficient * 10 + digitValue c
        if coefficientLimit ≤ next then
          if r.point then r.roundedAt? (c :: cs) else none
        else
          Reading.run ⟨next, if r.point then r.scale + 1 else 0, r.point, true⟩ cs
      else if c = '.' && !r.point then Reading.run ⟨r.coefficient, r.scale, true, r.anyDigit⟩ cs
      else if c = '_' && r.anyDigit then Reading.run r cs
      else none

/-- A number without exponent. A zero has no sign. -/
def parsePlain? (cs : List Char) : Option Decimal := do
  let (negative, body) :=
    match cs with
    | '-' :: rest => (true, rest)
    | '+' :: rest => (false, rest)
    | _ => (false, cs)
  let (coefficient, scale) ← Reading.run {} body
  ofParts? (negative && coefficient ≠ 0) coefficient scale

def isExponentMark (c : Char) : Bool := c = 'e' || c = 'E'

/-- Digits with an optional plus sign. -/
def unsigned? (cs : List Char) : Option Nat :=
  let ds := match cs with
    | '+' :: rest => rest
    | _ => cs
  if ds.isEmpty || !ds.all isDigit then none else some (Text.Digits.value ds)

/-- The point of a decimal moved to the right. A whole result has scale zero. -/
def shiftRight? (d : Decimal) (places : Nat) : Option Decimal :=
  if places ≤ d.scale then ofParts? d.negative d.coefficient (d.scale - places)
  else if maxScale < places then none
  else ofParts? d.negative (d.coefficient * Nat.pow 10 (places - d.scale)) 0

/-- The point of a decimal moved to the left. Places beyond the last are rounded away, and the
sign stays even if nothing else does. -/
def shiftLeft? (d : Decimal) (places : Nat) : Option Decimal :=
  if maxScale < places then none
  else
    let excess := d.scale + places - maxScale
    ofParts? d.negative (rounded d.coefficient excess) (d.scale + places - excess)

def parse? (cs : List Char) : Option Decimal :=
  match cs.dropWhile (fun c => !isExponentMark c) with
  | [] => parsePlain? cs
  | _ :: exponent => do
      let d ← parsePlain? (cs.takeWhile fun c => !isExponentMark c)
      match exponent with
      | '-' :: ds => d.shiftLeft? (← unsigned? ds)
      | ds => d.shiftRight? (← unsigned? ds)

end BoundSql.Decimal
