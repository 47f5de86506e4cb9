import BoundSql.Number.BinaryFormat

/-!
# Double and single precision

A double is its 64 bits, a single its 32. What they denote is read with `unpack`; no
floating-point arithmetic of the machine is involved.
-/
namespace BoundSql.Number

open BinaryFormat (binary64 binary32)

/-- A double is its bits. -/
structure Binary64 where
  bits : UInt64
  deriving DecidableEq, Inhabited

/-- A single is its bits. -/
structure Binary32 where
  bits : UInt32
  deriving DecidableEq, Inhabited

namespace Binary64

def unpack (x : Binary64) : Unpacked := binary64.unpack x.bits.toNat

def ofPattern (bits : Nat) : Binary64 := ⟨UInt64.ofNat bits⟩

def zero : Binary64 := ⟨0⟩

def nan : Binary64 := ofPattern (binary64.quietNan false 0)

def infinity (negative : Bool) : Binary64 :=
  ofPattern ((if negative then binary64.signBit else 0) + binary64.infinityBits)

/-- The double next to a fraction, ties to even. -/
def nearest (negative : Bool) (r : Ratio) : Binary64 := ofPattern (binary64.nearest negative r)

/-- The double next to an integer. -/
def ofInt (n : Int) : Binary64 := nearest (n < 0) ⟨n.natAbs, 1⟩

/-- Every single is a double. -/
def ofBinary32 (x : Binary32) : Binary64 :=
  ofPattern (convertBits binary32 binary64 x.bits.toNat)

def isNan (x : Binary64) : Bool := x.unpack = .nan

def isInfinite (x : Binary64) : Bool :=
  match x.unpack with
  | .infinite _ => true
  | _ => false

/-- The magnitude of a finite double as a fraction; zero for the others. -/
def magnitude (x : Binary64) : Ratio :=
  match x.unpack with
  | .finite _ m e => Ratio.scale 2 ⟨m, 1⟩ e
  | _ => ⟨0, 1⟩

def isFinite (x : Binary64) : Bool :=
  match x.unpack with
  | .finite .. => true
  | _ => false

/-- How many times the smallest positive double goes into one. -/
def unitsInOne : Nat := Nat.pow 2 (-binary64.minExponent).toNat

/-- The number `± m · 2 ^ e` as a multiple of the smallest positive double. -/
def units (negative : Bool) (m : Nat) (e : Int) : Int :=
  let n : Int := (m * Nat.pow 2 (e - binary64.minExponent).toNat : Nat)
  if negative then -n else n

/-- How two doubles compare. What is no number compares with nothing. -/
def compare? (x y : Binary64) : Option Ordering :=
  match x.unpack, y.unpack with
  | .nan, _ => none
  | _, .nan => none
  | .infinite a, .infinite b => some (compare b a)
  | .infinite a, .finite .. => some (if a then .lt else .gt)
  | .finite .., .infinite b => some (if b then .gt else .lt)
  | .finite a m e, .finite b n k => some (compare (units a m e) (units b n k))

/-- Nothing is below a NaN, or above one. -/
def lt (x y : Binary64) : Bool := x.compare? y = some .lt

def le (x y : Binary64) : Bool := x.compare? y = some .lt || x.compare? y = some .eq

/-- Whether a double has a fraction and the fraction is zero. -/
def isWhole (x : Binary64) : Bool :=
  match x.unpack with
  | .finite negative m e => units negative m e % unitsInOne = 0
  | _ => false

/-- The whole part of a double, moved to the nearer end of the 64-bit range if it lies outside. Zero
for what is no number. -/
def toInt64 (x : Binary64) : Int64 :=
  match x.unpack with
  | .nan => 0
  | .infinite negative => if negative then Int64.minValue else Int64.maxValue
  | .finite negative m e => Int64.ofIntClamp (Int.tdiv (units negative m e) unitsInOne)

def negate (x : Binary64) : Binary64 := ⟨x.bits ^^^ 0x8000000000000000⟩

end Binary64

namespace Binary32

def ofPattern (bits : Nat) : Binary32 := ⟨UInt32.ofNat bits⟩

def ofInt (n : Int) : Binary32 := ofPattern (binary32.nearest (n < 0) ⟨n.natAbs, 1⟩)

/-- The single nearest to a double. -/
def ofBinary64 (x : Binary64) : Binary32 :=
  ofPattern (convertBits binary64 binary32 x.bits.toNat)

end Binary32

end BoundSql.Number
