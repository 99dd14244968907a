/-
# Positions

Positions of blocks and epochs in chain queries: a number of 64 bits in hexadecimal behind `0x`.

Key definitions: `Position.encode`, `Position.parse?`.
-/
import OracleRelay.Text.Numeral

namespace OracleRelay
namespace Position

/-- The first number that is no position. -/
def bound : Nat := 0x10000000000000000

/-- The position after one, or the last position itself. -/
def next (n : Nat) : Nat := min (n + 1) (bound - 1)

/-- The text of a position. -/
def encode (n : Nat) : String := String.ofList ('0' :: 'x' :: Numeral.render 16 n)

/-- The position that a text gives. -/
def parse? (s : String) : Option Nat :=
  match s.toList with
  | '0' :: 'x' :: digits => Numeral.unsigned? 16 bound digits
  | '0' :: 'X' :: digits => Numeral.unsigned? 16 bound digits
  | _ => none

end Position
end OracleRelay
