import BoundSql.Calendar.Instant
import BoundSql.Text.Blank

/-!
# Reading instants

Two forms are read. The internet form of RFC 3339 has fixed widths and ends in an offset. The
plain form has none and is lenient: numbers may be shorter, white space may stand before them,
and a signed year may be longer.
-/
namespace BoundSql.Calendar

open Text.Digits (isDigit value)

/-- A reader takes a number, or nothing, from the front of a text. -/
abbrev Reader (α : Type) := List Char → Option (α × List Char)

/-- At most `most` digits, at least `least` of them. -/
def number (least most : Nat) : Reader Nat := fun cs =>
  let ds := (cs.take most).takeWhile isDigit
  if ds.length < least then none else some (value ds, cs.drop ds.length)

/-- A run of digits of any length, but not empty. -/
def longNumber : Reader Nat := fun cs =>
  let ds := cs.takeWhile isDigit
  if ds.isEmpty then none else some (value ds, cs.drop ds.length)

def exactly (c : Char) (cs : List Char) : Option (List Char) :=
  match cs with
  | d :: rest => if d = c then some rest else none
  | [] => none

/-- An optional fraction of a second in nanoseconds; digits after the ninth are skipped. -/
def fraction : Reader Nat
  | '.' :: cs =>
      let ds := cs.takeWhile isDigit
      if ds.isEmpty then none
      else
        let kept := ds.take 9
        some (value kept * Nat.pow 10 (9 - kept.length), cs.drop ds.length)
  | cs => some (0, cs)

/-- `Z`, or a signed offset from UTC in seconds. The minus sign U+2212 also counts. -/
def offset : Reader Int
  | [] => none
  | c :: cs =>
      if c = 'Z' ∨ c = 'z' then some (0, cs)
      else do
        let sign : Int ←
          if c = '+' then some 1
          else if c = '-' ∨ c = Char.ofNat 0x2212 then some (-1)
          else none
        let (hours, cs) ← number 2 2 cs
        let cs ← exactly ':' cs
        let (minutes, cs) ← number 2 2 cs
        if hours < 24 ∧ minutes < 60 then
          return (sign * (hours * 3600 + minutes * 60 : Nat), cs)
        else none

def parseInternet? (cs : List Char) : Option Instant := do
  let (year, cs) ← number 4 4 cs
  let cs ← exactly '-' cs
  let (month, cs) ← number 2 2 cs
  let cs ← exactly '-' cs
  let (day, cs) ← number 2 2 cs
  let cs ←
    match cs with
    | c :: rest => if c = 'T' ∨ c = 't' ∨ c = ' ' then some rest else none
    | [] => none
  let (hour, cs) ← number 2 2 cs
  let cs ← exactly ':' cs
  let (minute, cs) ← number 2 2 cs
  let cs ← exactly ':' cs
  let (second, cs) ← number 2 2 cs
  let (nanos, cs) ← fraction cs
  let (ahead, cs) ← offset cs
  if cs.isEmpty then CivilTime.toInstant? ⟨⟨year, month, day⟩, hour, minute, second, nanos⟩ ahead
  else none

/-- A year after white space: up to four digits, or any number of them after a sign. -/
def plainYear : Reader Int := fun cs =>
  match Text.trimStart cs with
  | '-' :: rest => (longNumber rest).map fun (n, rest) => (-(n : Int), rest)
  | '+' :: rest => (longNumber rest).map fun (n, rest) => ((n : Int), rest)
  | rest => (number 1 4 rest).map fun (n, rest) => ((n : Int), rest)

/-- One or two digits after white space. -/
def plainNumber : Reader Nat := fun cs => number 1 2 (Text.trimStart cs)

def parsePlain? (cs : List Char) : Option Instant := do
  let (year, cs) ← plainYear cs
  let cs ← exactly '-' cs
  let (month, cs) ← plainNumber cs
  let cs ← exactly '-' cs
  let (day, cs) ← plainNumber cs
  let (hour, cs) ← plainNumber cs
  let cs ← exactly ':' cs
  let (minute, cs) ← plainNumber cs
  let cs ← exactly ':' cs
  let (second, cs) ← plainNumber cs
  let (nanos, cs) ← fraction cs
  if cs.isEmpty then CivilTime.toInstant? ⟨⟨year, month, day⟩, hour, minute, second, nanos⟩ 0
  else none

/-- The internet form if the text has it, else the plain form. -/
def Instant.parse? (cs : List Char) : Option Instant :=
  match parseInternet? cs with
  | some t => some t
  | none => parsePlain? cs

end BoundSql.Calendar
