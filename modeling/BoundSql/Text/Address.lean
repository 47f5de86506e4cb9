import BoundSql.Text.Digits

/-!
# Network addresses

Four bytes are written with points. Eight groups of sixteen bits are written with colons; the
first longest run of at least two zero groups is left out, and an address that carries four bytes
after `ffff` shows them with points.
-/
namespace BoundSql.Text.Address

def dotted (bytes : List UInt8) : List Char :=
  List.intercalate ['.'] (bytes.map fun b => Digits.decimal b.toNat)

def groups : List UInt8 → List Nat
  | a :: b :: rest => (a.toNat * 256 + b.toNat) :: groups rest
  | _ => []

def coloned (gs : List Nat) : List Char := List.intercalate [':'] (gs.map Digits.hexadecimal)

/-- Length of the run of zeros at the front. -/
def zeroRun (gs : List Nat) : Nat := (gs.takeWhile (· = 0)).length

/-- Start and length of the first longest run of zeros. -/
def longestZeros (gs : List Nat) : Nat × Nat :=
  (List.range gs.length).foldl
    (fun best i =>
      let n := zeroRun (gs.drop i)
      if best.2 < n then (i, n) else best)
    (0, 0)

def compressed (gs : List Nat) : List Char :=
  let (start, length) := longestZeros gs
  if length < 2 then coloned gs
  else coloned (gs.take start) ++ ':' :: ':' :: coloned (gs.drop (start + length))

def isMapped (bytes : List UInt8) : Bool :=
  (bytes.take 10).all (· = 0) && (bytes.drop 10).take 2 = [255, 255]

/-- The text of an address of four or of sixteen bytes. -/
def toText (bytes : List UInt8) : String :=
  if bytes.length = 4 then String.ofList (dotted bytes)
  else if isMapped bytes then "::ffff:" ++ String.ofList (dotted (bytes.drop 12))
  else String.ofList (compressed (groups bytes))

end BoundSql.Text.Address
