/-
# Numbers as octets

The number that a sequence of octets holds with its most or its least significant octet first, and the
octets of a number.

Key definitions: `Octets.bigEndian`, `Octets.littleEndian`, `Octets.ofNatLittle`, `Octets.take?`.
-/

namespace OracleRelay
namespace Octets

/-- The number of octets with the most significant one first. -/
def bigEndian (bs : List UInt8) : Nat := bs.foldl (fun n b => n * 256 + b.toNat) 0

/-- The number of octets with the least significant one first. -/
def littleEndian : List UInt8 → Nat
  | [] => 0
  | b :: bs => b.toNat + 256 * littleEndian bs

/-- The lowest `count` octets of a number, the least significant one first. -/
def ofNatLittle : (count n : Nat) → List UInt8
  | 0, _ => []
  | count + 1, n => UInt8.ofNat (n % 256) :: ofNatLittle count (n / 256)

/-- The first `n` octets and the rest, if there are so many. -/
def take? (n : Nat) (bs : List UInt8) : Option (List UInt8 × List UInt8) :=
  if n ≤ bs.length then some (bs.take n, bs.drop n) else none

/-- The sequence is at least so long. Looks no further than that. -/
def hasLength : Nat → List UInt8 → Bool
  | 0, _ => true
  | _ + 1, [] => false
  | n + 1, _ :: bs => hasLength n bs

end Octets
end OracleRelay
