/-
# Octets as decimal digits

The numeral of an unsigned number of any length that is given by its octets. The number is kept in limbs of nine
decimal digits, the lowest limb first, and each octet moves it up by a factor of 256. The next numeral is found on the
digits themselves, from the last one on.

Key definitions: `Cbor.Limbs.shift`, `Cbor.Limbs.ofOctets`, `Cbor.Limbs.numeral`, `Cbor.increment`.
-/
import OracleRelay.Text.Numeral
import OracleRelay.Text.Utf8

namespace OracleRelay
namespace Cbor
namespace Limbs

/-- One more than a limb holds: nine decimal digits. -/
def unit : UInt64 := 1000000000

/-- The digits of a limb. -/
def width : Nat := 9

/-- A limb after one more octet, given what is carried into it, and what it carries on. -/
def shiftLimb (limb : UInt32) (carry : UInt64) : UInt32 × UInt64 :=
  let v := limb.toUInt64 * 256 + carry
  ((v % unit).toUInt32, v / unit)

theorem carry_decreases {carry : UInt64} (more : ¬ carry = 0) : (carry / unit).toNat < carry.toNat := by
  have positive : carry.toNat ≠ 0 := fun zero => more (UInt64.toNat_inj.mp zero)
  rw [UInt64.toNat_div]
  exact Nat.div_lt_self (Nat.pos_of_ne_zero positive) (by decide)

/-- The limbs of what is carried out of the topmost one. -/
def spill (carry : UInt64) : List UInt32 :=
  if carry = 0 then [] else (carry % unit).toUInt32 :: spill (carry / unit)
termination_by carry.toNat
decreasing_by exact carry_decreases ‹_›

/-- The limbs after one more octet. -/
def shift : List UInt32 → UInt64 → List UInt32
  | [], carry => spill carry
  | limb :: rest, carry => (shiftLimb limb carry).1 :: shift rest (shiftLimb limb carry).2

/-- The limbs of octets, of which the first is the most significant. -/
def ofOctets (bs : List UInt8) : List UInt32 := bs.foldl (fun limbs b => shift limbs b.toUInt64) [0]

/-- Digits with zeros in front, up to the digits of a limb. -/
def padded (cs : List Char) : List Char := List.replicate (width - cs.length) '0' ++ cs

/-- The digits of limbs: those of the topmost one as they are, and all of each further one. -/
def digits (limbs : List UInt32) : List Char :=
  match limbs.reverse with
  | [] => []
  | top :: rest => Numeral.render 10 top.toNat ++ rest.flatMap fun limb => padded (Numeral.render 10 limb.toNat)

/-- The numeral of limbs. -/
def numeral (limbs : List UInt32) : String := String.ofList (digits limbs)

end Limbs

/-- The digits of the next number, the last one first: each nine becomes a zero, up to a digit that is raised or to a
one in front. -/
def raise : List UInt8 → List UInt8
  | [] => [0x31]
  | d :: ds => if d = 0x39 then 0x30 :: raise ds else (d + 1) :: ds

/-- The numeral of the next number. -/
def increment (numeral : String) : String :=
  (Utf8.toString? (raise (Utf8.ofString numeral).reverse).reverse).getD ""

end Cbor
end OracleRelay
