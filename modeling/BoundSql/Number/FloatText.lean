import BoundSql.Number.Shortest

/-!
# Doubles as text

Two ways to write the shortest digits: `positional`, which never uses an exponent and takes the
upper one of two equally near decimals, and `document`, which has an exponent outside
10⁻⁵ … 10¹⁵, marks whole numbers with `.0` and takes the even one of two. `parse?` reads decimal
text and rounds it exactly.
-/
namespace BoundSql.Number

open Text.Digits (decimal isDigit)

namespace ShortDecimal

/-- Digits with a point where it belongs, and zeros up to it. -/
def positional (d : ShortDecimal) : List Char :=
  let ds := decimal d.digits
  if 0 ≤ d.exponent then ds ++ List.replicate d.exponent.toNat '0'
  else
    let point : Int := ds.length + d.exponent
    if 0 < point then ds.take point.toNat ++ '.' :: ds.drop point.toNat
    else '0' :: '.' :: List.replicate (-point).toNat '0' ++ ds

/-- One digit, the others after a point, and a signed exponent. -/
def scientific (d : ShortDecimal) : List Char :=
  let ds := decimal d.digits
  let e : Int := ds.length + d.exponent - 1
  let fraction := ds.drop 1
  ds.take 1 ++ (if fraction.isEmpty then [] else '.' :: fraction)
    ++ 'e' :: (if e < 0 then '-' else '+') :: decimal e.natAbs

/-- The exponent of the leading digit. -/
def leadingExponent (d : ShortDecimal) : Int := (decimal d.digits).length + d.exponent - 1

def document (d : ShortDecimal) : List Char :=
  let e := d.leadingExponent
  if -5 ≤ e ∧ e ≤ 15 then
    if 0 ≤ d.exponent then d.positional ++ ['.', '0'] else d.positional
  else d.scientific

end ShortDecimal

def signed (negative : Bool) (cs : List Char) : List Char := if negative then '-' :: cs else cs

namespace Binary64

def positionalChars (x : Binary64) : List Char :=
  match x.unpack with
  | .nan => ['N', 'a', 'N']
  | .infinite negative => signed negative ['i', 'n', 'f']
  | .finite negative 0 _ => signed negative ['0']
  | .finite negative m e => signed negative (shortest .up m e).positional

/-- Plain text of a double. -/
def toText (x : Binary64) : String := String.ofList x.positionalChars

/-- Text of a finite double inside a JSON document. -/
def documentChars (x : Binary64) : List Char :=
  match x.unpack with
  | .nan | .infinite _ => ['n', 'u', 'l', 'l']
  | .finite negative 0 _ => signed negative ['0', '.', '0']
  | .finite negative m e => signed negative (shortest .toEven m e).document

/-- The double nearest to `± digits · 10 ^ exponent`. Far outside the range the answer is known
without the power. -/
def nearestDecimal (negative : Bool) (digits : Nat) (exponent : Int) : Binary64 :=
  let size : Int := (decimal digits).length + exponent
  if digits = 0 ∨ size < -400 then nearest negative ⟨0, 1⟩
  else if 400 < size then infinity negative
  else nearest negative (Ratio.scale 10 ⟨digits, 1⟩ exponent)

end Binary64

/-- A sign at the front, if there is one. -/
def splitSign : List Char → Bool × List Char
  | '-' :: cs => (true, cs)
  | '+' :: cs => (false, cs)
  | cs => (false, cs)

def lowerAscii (c : Char) : Char :=
  if 65 ≤ c.toNat ∧ c.toNat ≤ 90 then Char.ofNat (c.toNat + 32) else c

/-- The exponent part of a number: nothing, or `e` with a signed run of digits up to the end. -/
def exponentPart? : List Char → Option Int
  | [] => some 0
  | e :: cs =>
      if e = 'e' ∨ e = 'E' then
        let (negative, ds) := splitSign cs
        if ds.isEmpty || !ds.all isDigit then none
        else
          let n : Int := Text.Digits.value ds
          some (if negative then -n else n)
      else none

/-- Digits with an optional point on either side of them, then an optional exponent. -/
def unsignedDecimal? (cs : List Char) : Option (Nat × Int) :=
  let whole := cs.takeWhile isDigit
  let rest := cs.dropWhile isDigit
  let (fraction, tail) :=
    match rest with
    | '.' :: more => (more.takeWhile isDigit, more.dropWhile isDigit)
    | _ => ([], rest)
  if whole.isEmpty && fraction.isEmpty then none
  else do
    let e ← exponentPart? tail
    return (Text.Digits.value (whole ++ fraction), e - fraction.length)

/-- Read a double: a decimal number, or a word for infinity or for no number in any case. -/
def Binary64.parse? (cs : List Char) : Option Binary64 :=
  let (negative, body) := splitSign cs
  let word := String.ofList (body.map lowerAscii)
  if word = "inf" ∨ word = "infinity" then some (infinity negative)
  else if word = "nan" then some (if negative then nan.negate else nan)
  else (unsignedDecimal? body).map fun (digits, e) => nearestDecimal negative digits e

end BoundSql.Number
