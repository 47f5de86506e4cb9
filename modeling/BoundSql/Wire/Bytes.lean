/-!
# Big-endian integers

The binary form of an integer of `k` bytes starts with the most significant one; negative
integers are in two's complement.
-/
namespace BoundSql.Wire

/-- The last bytes of a number, the highest first. -/
def unsignedBytes : Nat → Nat → List UInt8
  | 0, _ => []
  | k + 1, n => unsignedBytes k (n / 256) ++ [UInt8.ofNat (n % 256)]

def unsigned (bytes : List UInt8) : Nat := bytes.foldl (fun n b => n * 256 + b.toNat) 0

/-- The two's complement of a number in so many bytes. -/
def signedBytes (k : Nat) (n : Int) : List UInt8 :=
  unsignedBytes k (n % (Nat.pow 256 k : Int)).toNat

def signed (bytes : List UInt8) : Int :=
  let n : Int := unsigned bytes
  let m : Int := Nat.pow 256 bytes.length
  if 2 * n < m then n else n - m

/-- The integer of exactly `k` bytes. -/
def unsigned? (k : Nat) (bytes : List UInt8) : Option Nat :=
  if bytes.length = k then some (unsigned bytes) else none

/-- The signed integer of exactly `k` bytes. -/
def signed? (k : Nat) (bytes : List UInt8) : Option Int :=
  if bytes.length = k then some (signed bytes) else none

end BoundSql.Wire
