import BoundSql.Text.Digits

/-!
# Whole numbers as text

A whole number is read from an optional sign and ASCII digits. The result must fit the 64-bit
range; nothing is rounded or wrapped.
-/
namespace BoundSql.Number

open Text.Digits (isDigit)

/-- Digits, at least one of them, with one sign at most. -/
def parseInt? (cs : List Char) : Option Int :=
  let (negative, ds) :=
    match cs with
    | '-' :: rest => (true, rest)
    | '+' :: rest => (false, rest)
    | _ => (false, cs)
  if ds.isEmpty || !ds.all isDigit then none
  else
    let n : Int := Text.Digits.value ds
    some (if negative then -n else n)

def int64? (n : Int) : Option Int64 :=
  if -9223372036854775808 ≤ n ∧ n ≤ 9223372036854775807 then some (Int64.ofInt n) else none

def parseInt64? (cs : List Char) : Option Int64 := (parseInt? cs).bind int64?

end BoundSql.Number
