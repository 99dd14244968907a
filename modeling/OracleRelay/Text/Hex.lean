/-
# Hexadecimal text

Two digits an octet. What is written is in lower case; what is read may be in either.

Key definitions: `Hex.encode`, `Hex.decode`, `Hex.stripMark`, `Hex.Fault.message`.
-/
import OracleRelay.Text.Numeral
import OracleRelay.Text.Utf8

namespace OracleRelay
namespace Hex

/-- The two digits of an octet. -/
def digits (b : UInt8) : List Char :=
  [Numeral.digitChar (b.toNat / 16), Numeral.digitChar (b.toNat % 16)]

/-- The digits of some octets. -/
def encode (bs : List UInt8) : List Char := bs.flatMap digits

/-- The digits of some octets, as a string. -/
def text (bs : List UInt8) : String := String.ofList (encode bs)

/-- The digits of some octets behind the mark `0x`. -/
def marked (bs : List UInt8) : String := String.ofList ('0' :: 'x' :: encode bs)

/-- Why a text is no sequence of octets. -/
inductive Fault where
  | oddLength
  /-- an octet of the text that is no digit, and its place in octets -/
  | notDigit (b : UInt8) (place : Nat)
  deriving DecidableEq, Repr

/-- An octet of a text as a quoted character. What cannot be seen is written as an escape. -/
def quoted (b : UInt8) : List Char :=
  let n := b.toNat
  let inner :=
    if n = 0 then ['\\', '0']
    else if n = 9 then ['\\', 't']
    else if n = 10 then ['\\', 'n']
    else if n = 13 then ['\\', 'r']
    else if n = 39 then ['\\', '\'']
    else if n = 92 then ['\\', '\\']
    else if n < 32 ∨ (127 ≤ n ∧ n ≤ 160) ∨ n = 173 then
      '\\' :: 'u' :: '\x7b' :: Numeral.render 16 n ++ ['\x7d']
    else [Char.ofNat n]
  '\'' :: inner ++ ['\'']

/-- The text of a fault. -/
def Fault.message : Fault → String
  | .oddLength => "Odd number of digits"
  | .notDigit b place =>
    "Invalid character " ++ String.ofList (quoted b) ++ " at position " ++ Numeral.decimal place

/-- The value of an octet of the text as a digit. -/
def nibble (b : UInt8) (place : Nat) : Except Fault Nat :=
  match Numeral.digit? 16 (Char.ofNat b.toNat) with
  | some d => .ok d
  | none => .error (.notDigit b place)

/-- The octets of pairs of digits from the given place on. -/
def decodePairs (place : Nat) : List UInt8 → Except Fault (List UInt8)
  | [] => .ok []
  | [_] => .error .oddLength
  | a :: b :: rest =>
    match nibble a place, nibble b (place + 1), decodePairs (place + 2) rest with
    | .error e, _, _ => .error e
    | .ok _, .error e, _ => .error e
    | .ok _, .ok _, .error e => .error e
    | .ok x, .ok y, .ok bs => .ok (UInt8.ofNat (x * 16 + y) :: bs)

/-- The octets that a text of digits spells. An odd count of digits is found first. -/
def decode (s : String) : Except Fault (List UInt8) :=
  let bs := Utf8.ofString s
  if bs.length % 2 = 1 then .error .oddLength else decodePairs 0 bs

/-- Leaves out the mark `0x` in front, if it is there. -/
def stripMark (s : String) : String :=
  match s.toList with
  | '0' :: 'x' :: rest => String.ofList rest
  | _ => s

end Hex
end OracleRelay
