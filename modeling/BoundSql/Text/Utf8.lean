import BoundSql.Text.Digits

/-!
# UTF-8

Characters are written as one to four bytes. Reading stops at the first byte that starts no
well-formed sequence and says where it stands: how many bytes of a sequence were still good, or
that the text ended inside one.
-/
namespace BoundSql.Text.Utf8

/-- Why a byte list is no text. -/
inductive DecodeError where
  | invalid (index length : Nat)
  | incomplete (index : Nat)
  deriving DecidableEq

def DecodeError.message : DecodeError → String
  | .invalid index length =>
      "invalid utf-8 sequence of " ++ Digits.text length ++ " bytes from index "
        ++ Digits.text index
  | .incomplete index => "incomplete utf-8 byte sequence from index " ++ Digits.text index

def encodeChar (c : Char) : List UInt8 :=
  let n := c.toNat
  if n < 0x80 then [UInt8.ofNat n]
  else if n < 0x800 then [UInt8.ofNat (0xC0 + n / 64), UInt8.ofNat (0x80 + n % 64)]
  else if n < 0x10000 then
    [UInt8.ofNat (0xE0 + n / 4096), UInt8.ofNat (0x80 + n / 64 % 64),
      UInt8.ofNat (0x80 + n % 64)]
  else
    [UInt8.ofNat (0xF0 + n / 262144), UInt8.ofNat (0x80 + n / 4096 % 64),
      UInt8.ofNat (0x80 + n / 64 % 64), UInt8.ofNat (0x80 + n % 64)]

def encode (cs : List Char) : List UInt8 := cs.flatMap encodeChar

def encodeText (s : String) : List UInt8 := encode s.toList

def isContinuation (b : Nat) : Bool := 0x80 ≤ b && b ≤ 0xBF

/-- The bytes that may follow the first byte of a three-byte sequence: neither an overlong form
nor a surrogate. -/
def secondOfThree (b0 b1 : Nat) : Bool :=
  if b0 = 0xE0 then 0xA0 ≤ b1 && b1 ≤ 0xBF
  else if b0 = 0xED then 0x80 ≤ b1 && b1 ≤ 0x9F
  else isContinuation b1

/-- The bytes that may follow the first byte of a four-byte sequence: neither an overlong form
nor a number above the last character. -/
def secondOfFour (b0 b1 : Nat) : Bool :=
  if b0 = 0xF0 then 0x90 ≤ b1 && b1 ≤ 0xBF
  else if b0 = 0xF4 then 0x80 ≤ b1 && b1 ≤ 0x8F
  else isContinuation b1

/-- What stands at the front of a byte list. -/
inductive Step where
  | char (c : Char) (length : Nat)
  | invalid (length : Nat)
  | incomplete

def char2 (b0 b1 : Nat) : Char := Char.ofNat ((b0 - 0xC0) * 64 + (b1 - 0x80))

def char3 (b0 b1 b2 : Nat) : Char :=
  Char.ofNat ((b0 - 0xE0) * 4096 + (b1 - 0x80) * 64 + (b2 - 0x80))

def char4 (b0 b1 b2 b3 : Nat) : Char :=
  Char.ofNat ((b0 - 0xF0) * 262144 + (b1 - 0x80) * 4096 + (b2 - 0x80) * 64 + (b3 - 0x80))

/-- Read one character after its first byte `b0`. -/
def step (b0 : Nat) (rest : List Nat) : Step :=
  if b0 < 0x80 then .char (Char.ofNat b0) 1
  else if 0xC2 ≤ b0 && b0 ≤ 0xDF then
    match rest with
    | [] => .incomplete
    | b1 :: _ => if isContinuation b1 then .char (char2 b0 b1) 2 else .invalid 1
  else if 0xE0 ≤ b0 && b0 ≤ 0xEF then
    match rest with
    | [] => .incomplete
    | b1 :: rest =>
        if secondOfThree b0 b1 then
          match rest with
          | [] => .incomplete
          | b2 :: _ => if isContinuation b2 then .char (char3 b0 b1 b2) 3 else .invalid 2
        else .invalid 1
  else if 0xF0 ≤ b0 && b0 ≤ 0xF4 then
    match rest with
    | [] => .incomplete
    | b1 :: rest =>
        if secondOfFour b0 b1 then
          match rest with
          | [] => .incomplete
          | b2 :: rest =>
              if isContinuation b2 then
                match rest with
                | [] => .incomplete
                | b3 :: _ =>
                    if isContinuation b3 then .char (char4 b0 b1 b2 b3) 4 else .invalid 3
              else .invalid 2
        else .invalid 1
  else .invalid 1

def decodeFrom (index : Nat) (bytes : List UInt8) : Except DecodeError (List Char) :=
  match bytes with
  | [] => .ok []
  | b0 :: rest =>
      match step b0.toNat ((rest.take 3).map UInt8.toNat) with
      | .char c length => (decodeFrom (index + length) (rest.drop (length - 1))).map (c :: ·)
      | .invalid length => .error (.invalid index length)
      | .incomplete => .error (.incomplete index)
termination_by bytes.length
decreasing_by simp only [List.length_cons, List.length_drop]; omega

def decode (bytes : List UInt8) : Except DecodeError (List Char) := decodeFrom 0 bytes

def decodeText (bytes : List UInt8) : Except DecodeError String :=
  (decode bytes).map String.ofList

end BoundSql.Text.Utf8
