/-
# SCALE

The compact binary form in which Substrate stores its events: numbers of fixed width with the least significant
octet first, lengths in a compact form of one to five octets, and sequences behind their length.

Key definitions: `Scale.Reader`, `Scale.compact`, `Scale.vector`, `Scale.writeCompact`.
-/
import OracleRelay.Text.Octets

namespace OracleRelay
namespace Scale

/-- Reads a value from the front of some octets, and gives what follows it. -/
abbrev Reader (α : Type) := List UInt8 → Option (α × List UInt8)

/-- One octet. -/
def octet : Reader UInt8
  | [] => none
  | b :: bs => some (b, bs)

/-- So many octets. -/
def octets (n : Nat) : Reader (List UInt8) := Octets.take? n

/-- A number of so many octets. -/
def number (width : Nat) : Reader Nat := fun bs =>
  (Octets.take? width bs).map fun (ds, rest) => (Octets.littleEndian ds, rest)

/-- One octet that is zero or one. -/
def boolean : Reader Bool
  | 0 :: bs => some (false, bs)
  | 1 :: bs => some (true, bs)
  | _ => none

/-- A number of 32 bits in compact form. The two lowest bits tell the width; each number has one form only. -/
def compact : Reader Nat
  | [] => none
  | b :: bs =>
    match b.toNat % 4 with
    | 0 => some (b.toNat / 4, bs)
    | 1 => (number 2 (b :: bs)).bind fun (n, rest) => if 0x40 ≤ n / 4 then some (n / 4, rest) else none
    | 2 => (number 4 (b :: bs)).bind fun (n, rest) => if 0x4000 ≤ n / 4 then some (n / 4, rest) else none
    | _ =>
      if b.toNat / 4 = 0 then
        (number 4 bs).bind fun (n, rest) => if 0x40000000 ≤ n then some (n, rest) else none
      else none

/-- So many values. -/
def many {α : Type} (r : Reader α) : Nat → Reader (List α)
  | 0, bs => some ([], bs)
  | n + 1, bs =>
    match r bs with
    | none => none
    | some (x, rest) => (many r n rest).map fun (xs, rest) => (x :: xs, rest)

/-- Values behind their count. There cannot be more of them than octets are left. -/
def vector {α : Type} (r : Reader α) : Reader (List α) := fun bs =>
  match compact bs with
  | none => none
  | some (n, rest) => if Octets.hasLength n rest then many r n rest else none

/-- A string of octets behind its length. -/
def bytes : Reader (List UInt8) := fun bs =>
  match compact bs with
  | none => none
  | some (n, rest) => octets n rest

/-- The compact form of a number of 32 bits. -/
def writeCompact (n : Nat) : List UInt8 :=
  if n < 0x40 then Octets.ofNatLittle 1 (4 * n)
  else if n < 0x4000 then Octets.ofNatLittle 2 (4 * n + 1)
  else if n < 0x40000000 then Octets.ofNatLittle 4 (4 * n + 2)
  else 3 :: Octets.ofNatLittle 4 n

end Scale
end OracleRelay
