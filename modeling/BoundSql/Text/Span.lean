import BoundSql.Text.Digits

/-!
# Spans of time

A span is a number of nanoseconds whose whole seconds fit into a machine word. It is written in the
largest of the units `s`, `ms`, `µs` and `ns` of which it has at least one, with its exact fraction.
-/
namespace BoundSql.Text

structure Span where
  nanos : Nat
  nanos_lt : nanos < 18446744073709551616000000000
  deriving DecidableEq

namespace Span

/-- The span of so many nanoseconds, if there is one. -/
def ofNanos? (nanos : Nat) : Option Span :=
  if h : nanos < 18446744073709551616000000000 then some ⟨nanos, h⟩ else none

def zero : Span := ⟨0, by decide⟩

/-- `whole.fraction` of a unit of `10 ^ places` nanoseconds, without trailing zeros. -/
def inUnit (places nanos : Nat) : List Char :=
  let whole := nanos / Nat.pow 10 places
  let rest := Digits.padded places (nanos % Nat.pow 10 places)
  let fraction := (rest.reverse.dropWhile (· = '0')).reverse
  Digits.decimal whole ++ (if places = 0 ∨ fraction.isEmpty then [] else '.' :: fraction)

def toText (s : Span) : String :=
  if 1000000000 ≤ s.nanos then String.ofList (inUnit 9 s.nanos) ++ "s"
  else if 1000000 ≤ s.nanos then String.ofList (inUnit 6 s.nanos) ++ "ms"
  else if 1000 ≤ s.nanos then String.ofList (inUnit 3 s.nanos) ++ "µs"
  else String.ofList (inUnit 0 s.nanos) ++ "ns"

end Span

end BoundSql.Text
