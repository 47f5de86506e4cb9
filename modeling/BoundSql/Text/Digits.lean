/-!
# Decimal and hexadecimal digits

Numbers are written most significant digit first. `decimal` writes a natural number without
leading zeros, `value` reads a run of decimal digits back, and `padded` fills up with zeros on
the left.
-/
namespace BoundSql.Text.Digits

/-- The character of a digit below sixteen, letters in lower case. -/
def digitChar (d : Nat) : Char :=
  if d < 10 then Char.ofNat (48 + d) else Char.ofNat (87 + d)

def upperDigitChar (d : Nat) : Char :=
  if d < 10 then Char.ofNat (48 + d) else Char.ofNat (55 + d)

/-- ASCII decimal digits only. -/
def isDigit (c : Char) : Bool := 48 ≤ c.toNat && c.toNat ≤ 57

def digitValue (c : Char) : Nat := c.toNat - 48

def decimal (n : Nat) : List Char :=
  if n < 10 then [digitChar n] else decimal (n / 10) ++ [digitChar (n % 10)]
termination_by n

/-- The number that a run of decimal digits stands for. -/
def value (cs : List Char) : Nat := cs.foldl (fun n c => n * 10 + digitValue c) 0

/-- 2⁶⁴, the first number that a machine word cannot hold. -/
def wordLimit : Nat := 18446744073709551616

/-- At least `width` digits, filled with zeros on the left. -/
def padded (width n : Nat) : List Char :=
  let ds := decimal n
  List.replicate (width - ds.length) '0' ++ ds

def intDecimal (n : Int) : List Char :=
  if n < 0 then '-' :: decimal n.natAbs else decimal n.natAbs

/-- Lower-case hexadecimal without leading zeros. -/
def hexadecimal (n : Nat) : List Char :=
  if n < 16 then [digitChar n] else hexadecimal (n / 16) ++ [digitChar (n % 16)]
termination_by n

/-- Two lower-case hexadecimal digits. -/
def hexByte (b : UInt8) : List Char :=
  [digitChar (b.toNat / 16), digitChar (b.toNat % 16)]

def upperHexByte (b : UInt8) : List Char :=
  [upperDigitChar (b.toNat / 16), upperDigitChar (b.toNat % 16)]

def hexValue? (c : Char) : Option Nat :=
  let n := c.toNat
  if isDigit c then some (n - 48)
  else if 97 ≤ n && n ≤ 102 then some (n - 87)
  else if 65 ≤ n && n ≤ 70 then some (n - 55)
  else none

/-- Pairs of hexadecimal digits as bytes. -/
def hexBytes? : List Char → Option (List UInt8)
  | [] => some []
  | [_] => none
  | a :: b :: rest => do
      let x ← hexValue? a
      let y ← hexValue? b
      let more ← hexBytes? rest
      return UInt8.ofNat (x * 16 + y) :: more

def text (n : Nat) : String := String.ofList (decimal n)

def intText (n : Int) : String := String.ofList (intDecimal n)

end BoundSql.Text.Digits
