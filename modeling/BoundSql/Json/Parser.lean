import BoundSql.Json.Basic
import BoundSql.Number.FloatText

/-!
# Reading JSON

The grammar is that of RFC 8259 without extensions, with fewer than 128 levels of nesting. A
number with a point or an exponent is read as its leading digits, as far as they fit 64 bits,
times a power of ten, each rounded to a double; one that is too large is an error.
-/
namespace BoundSql.Json

namespace Grammar

open Number (Binary64)
open Text.Digits (isDigit digitValue hexValue? wordLimit)

def isSpace (c : Char) : Bool := c = ' ' || c = '\t' || c = '\n' || c = '\r'

def skipSpace (cs : List Char) : List Char := cs.dropWhile isSpace

/-- The power of ten as a double. -/
def tenTo (n : Nat) : Binary64 := Binary64.nearest false ⟨Nat.pow 10 n, 1⟩

/-- A nonnegative double times a power of ten, rounded; dividing goes in steps of at most 308
places. `none` stands for a number that is too large. -/
def scaleByTen : Nat → Binary64 → Int → Option Binary64
  | 0, x, _ => some x
  | fuel + 1, x, e =>
      if e.natAbs ≤ 308 then
        if 0 ≤ e then
          let y := Binary64.nearest false (x.magnitude.mul (tenTo e.toNat).magnitude)
          if y.isInfinite then none else some y
        else some (Binary64.nearest false (x.magnitude.div (tenTo e.natAbs).magnitude))
      else if x = Binary64.zero then some x
      else if 0 ≤ e then none
      else
        let y := Binary64.nearest false (x.magnitude.div (tenTo 308).magnitude)
        scaleByTen fuel y (e + 308)

/-- After four divisions by 10³⁰⁸ nothing is left of any 64-bit number. -/
def scaled? (negative : Bool) (significand : Nat) (e : Int) : Option Json :=
  (scaleByTen 6 (Binary64.ofInt significand) e).map fun x =>
    .float (if negative then x.negate else x)

/-- The leading digits that fit 64 bits, and how many digits were left out. -/
def leadingDigits (start : Nat) : List Char → Nat × Nat
  | [] => (start, 0)
  | c :: cs =>
      let next := start * 10 + digitValue c
      if next < wordLimit then leadingDigits next cs else (start, (c :: cs).length)

/-- An exponent part, if the text has one: `none` inside means that it is malformed. -/
def exponent (cs : List Char) : Option (Option Int × List Char) :=
  match cs with
  | e :: rest =>
      if e = 'e' ∨ e = 'E' then
        let (negative, rest) := Number.splitSign rest
        let ds := rest.takeWhile isDigit
        if ds.isEmpty then none
        else
          let n : Int := Text.Digits.value ds
          some (some (if negative then -n else n), rest.drop ds.length)
      else some (none, cs)
  | [] => some (none, [])

/-- An exponent beyond 32 bits makes zero of a negative one and fails for a positive one. -/
def withExponent? (negative : Bool) (significand : Nat) (places e : Int) : Option Json :=
  if 2147483647 < e.natAbs then
    if significand ≠ 0 ∧ 0 < e then none
    else some (.float (if negative then Binary64.zero.negate else Binary64.zero))
  else scaled? negative significand (places + e)

/-- A whole number as such if it fits, else as a double. -/
def wholeNumber (negative : Bool) (n : Nat) : Json :=
  if negative then
    if 0 < n ∧ n ≤ 9223372036854775808 then .integer (-n) else .float (Binary64.ofInt n).negate
  else .integer n

/-- The digits of a number after its sign, and what follows them. -/
def unsignedNumber (negative : Bool) (cs : List Char) : Option (Json × List Char) := do
  let whole := cs.takeWhile isDigit
  if whole.isEmpty || (whole.head? = some '0' && 1 < whole.length) then none
  let rest := cs.drop whole.length
  let (significand, skipped) := leadingDigits 0 whole
  match rest with
  | '.' :: more =>
      let fraction := more.takeWhile isDigit
      if fraction.isEmpty then none
      let rest := more.drop fraction.length
      let (significand, dropped) := leadingDigits significand fraction
      let places : Int := skipped - (fraction.length - dropped : Nat)
      let (e, rest) ← exponent rest
      let j ← withExponent? negative significand places (e.getD 0)
      return (j, rest)
  | _ =>
      let (e, rest) ← exponent rest
      match e with
      | some e =>
          let j ← withExponent? negative significand skipped e
          return (j, rest)
      | none =>
          if skipped = 0 then return (wholeNumber negative significand, rest)
          else
            let j ← scaled? negative significand skipped
            return (j, rest)

def fourHex : List Char → Option (Nat × List Char)
  | a :: b :: c :: d :: rest => do
      let a ← hexValue? a
      let b ← hexValue? b
      let c ← hexValue? c
      let d ← hexValue? d
      return (((a * 16 + b) * 16 + c) * 16 + d, rest)
  | _ => none

/-- The character of a `\u` escape, two of them for a pair of surrogates. -/
def unicodeEscape (cs : List Char) : Option (Char × List Char) := do
  let (n, rest) ← fourHex cs
  if 0xDC00 ≤ n ∧ n ≤ 0xDFFF then none
  else if 0xD800 ≤ n ∧ n ≤ 0xDBFF then
    match rest with
    | '\\' :: 'u' :: more =>
        let (m, rest) ← fourHex more
        if 0xDC00 ≤ m ∧ m ≤ 0xDFFF then
          return (Char.ofNat (0x10000 + (n - 0xD800) * 1024 + (m - 0xDC00)), rest)
        else none
    | _ => none
  else return (Char.ofNat n, rest)

def simpleEscape (c : Char) : Option Char :=
  if c = '"' ∨ c = '\\' ∨ c = '/' then some c
  else if c = 'b' then some (Char.ofNat 8)
  else if c = 'f' then some (Char.ofNat 12)
  else if c = 'n' then some '\n'
  else if c = 'r' then some '\r'
  else if c = 't' then some '\t'
  else none

/-- The rest of a string after its opening quote. -/
def stringBody : Nat → List Char → List Char → Option (List Char × List Char)
  | 0, _, _ => none
  | _ + 1, _, [] => none
  | fuel + 1, done, c :: cs =>
      if c = '"' then some (done.reverse, cs)
      else if c = '\\' then
        match cs with
        | 'u' :: more => do
            let (d, rest) ← unicodeEscape more
            stringBody fuel (d :: done) rest
        | d :: rest => do
            let d ← simpleEscape d
            stringBody fuel (d :: done) rest
        | [] => none
      else if c.toNat < 32 then none
      else stringBody fuel (c :: done) cs

def string (cs : List Char) : Option (String × List Char) :=
  (stringBody (cs.length + 1) [] cs).map fun (s, rest) => (String.ofList s, rest)

def keyword (word : List Char) (j : Json) (cs : List Char) : Option (Json × List Char) :=
  if word.isPrefixOf cs then some (j, cs.drop word.length) else none

mutual

/-- A value; `depth` levels of nesting are left. -/
def value : Nat → Nat → List Char → Option (Json × List Char)
  | 0, _, _ => none
  | fuel + 1, depth, cs =>
      match skipSpace cs with
      | [] => none
      | c :: rest =>
          if c = 'n' then keyword ['n', 'u', 'l', 'l'] .null (c :: rest)
          else if c = 't' then keyword ['t', 'r', 'u', 'e'] (.bool true) (c :: rest)
          else if c = 'f' then keyword ['f', 'a', 'l', 's', 'e'] (.bool false) (c :: rest)
          else if c = '-' then unsignedNumber true rest
          else if isDigit c then unsignedNumber false (c :: rest)
          else if c = '"' then (string rest).map fun (s, rest) => (.string s, rest)
          else if c = '[' then
            if depth ≤ 1 then none
            else
              match skipSpace rest with
              | ']' :: rest => some (.array [], rest)
              | rest => (items fuel (depth - 1) rest).map fun (js, rest) => (.array js, rest)
          else if c = '\x7b' then
            if depth ≤ 1 then none
            else
              match skipSpace rest with
              | '\x7d' :: rest => some (.object [], rest)
              | rest =>
                  (fields fuel (depth - 1) [] rest).map fun (fs, rest) => (.object fs, rest)
          else none

/-- One or more items up to the closing bracket. -/
def items : Nat → Nat → List Char → Option (List Json × List Char)
  | 0, _, _ => none
  | fuel + 1, depth, cs => do
      let (j, rest) ← value fuel depth cs
      match skipSpace rest with
      | ',' :: rest =>
          let (js, rest) ← items fuel depth rest
          return (j :: js, rest)
      | ']' :: rest => return ([j], rest)
      | _ => none

/-- One or more fields up to the closing brace, added to those before. -/
def fields : Nat → Nat → List (String × Json) → List Char →
    Option (List (String × Json) × List Char)
  | 0, _, _, _ => none
  | fuel + 1, depth, before, cs =>
      match skipSpace cs with
      | '"' :: rest => do
          let (name, rest) ← string rest
          match skipSpace rest with
          | ':' :: rest =>
              let (j, rest) ← value fuel depth rest
              let all := insertField name j before
              match skipSpace rest with
              | ',' :: rest => fields fuel depth all rest
              | '\x7d' :: rest => return (all, rest)
              | _ => none
          | _ => none
      | _ => none

end

/-- Levels of nesting at which reading gives up. -/
def nestingLimit : Nat := 128

end Grammar

/-- A whole text as one document. Every call reads a character or hands the text to one that
does, so twice its length bounds the calls. -/
def parse? (cs : List Char) : Option Json :=
  match Grammar.value (2 * cs.length + 2) Grammar.nestingLimit cs with
  | some (j, rest) => if (Grammar.skipSpace rest).isEmpty then some j else none
  | none => none

end BoundSql.Json
