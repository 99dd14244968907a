/-
# Reading CBOR

Reads one data item from the front of some octets; what follows it is left. Lengths and heads need not be
shortest, strings, arrays and maps may have no length in front, and a tagged byte string that spells a number of
at most 16 octets is that number when it is in the range of integers. Arrays, maps and the other tags may lie
256 deep inside each other.

Key definitions: `Cbor.Head.read`, `Cbor.Item.read`, `Cbor.Item.decode?`.
-/
import OracleRelay.Cbor.Item
import OracleRelay.Text.Octets
import OracleRelay.Text.Utf8

namespace OracleRelay
namespace Cbor

/-- The first octets of an item: its major type and the number that goes with it. -/
inductive Head where
  | positive (n : Nat)
  | negative (n : Nat)
  /-- without a length the string comes in segments -/
  | bytes (len : Option Nat)
  | text (len : Option Nat)
  | array (len : Option Nat)
  | map (len : Option Nat)
  | tag (n : Nat)
  | simple (n : Nat)
  | float (x : Binary64)
  | stop
  deriving DecidableEq, Repr

/-- The argument of a head. -/
inductive Argument where
  | number (n : Nat) (octets : Nat)
  | indefinite
  deriving DecidableEq, Repr

/-- Reads the argument that the low five bits of the first octet announce. -/
def Argument.read (low : Nat) (bs : List UInt8) : Option (Argument × List UInt8) :=
  let wide (octets : Nat) := (Octets.take? octets bs).map fun (arg, rest) =>
    (Argument.number (Octets.bigEndian arg) octets, rest)
  if low < 24 then some (.number low 0, bs)
  else if low = 24 then wide 1
  else if low = 25 then wide 2
  else if low = 26 then wide 4
  else if low = 27 then wide 8
  else if low = 31 then some (.indefinite, bs)
  else none

/-- The length that an argument gives, none for an indefinite one. -/
def Argument.length? : Argument → Option Nat
  | .number n _ => some n
  | .indefinite => none

/-- A floating-point number of a narrower format, of `expBits` and `fracBits`, as a double. -/
def widen (expBits fracBits n : Nat) : Binary64 :=
  let sign := n / Nat.pow 2 (expBits + fracBits) % 2
  let exp := n / Nat.pow 2 fracBits % Nat.pow 2 expBits
  let frac := n % Nat.pow 2 fracBits
  let bias := Nat.pow 2 (expBits - 1) - 1
  let shifted := frac * Nat.pow 2 (52 - fracBits)
  let magnitude :=
    if exp = Nat.pow 2 expBits - 1 then 2047 * Nat.pow 2 52 + shifted
    else if exp ≠ 0 then (exp + 1023 - bias) * Nat.pow 2 52 + shifted
    else if frac = 0 then 0
    else
      let top := Nat.log2 frac
      (1024 + top - bias - fracBits) * Nat.pow 2 52 + (frac - Nat.pow 2 top) * Nat.pow 2 (52 - top)
  ⟨UInt64.ofNat (sign * Nat.pow 2 63 + magnitude)⟩

/-- The head of an item without type, by the octets of its argument. -/
def Head.ofOther : Argument → Head
  | .indefinite => .stop
  | .number n 2 => .float (widen 5 10 n)
  | .number n 4 => .float (widen 8 23 n)
  | .number n 8 => .float ⟨UInt64.ofNat n⟩
  | .number n _ => .simple n

/-- The head of a major type with its argument. Numbers and tags need one. -/
def Head.ofParts? (major : Nat) (arg : Argument) : Option Head :=
  match major, arg with
  | 0, .number n _ => some (.positive n)
  | 1, .number n _ => some (.negative n)
  | 2, arg => some (.bytes arg.length?)
  | 3, arg => some (.text arg.length?)
  | 4, arg => some (.array arg.length?)
  | 5, arg => some (.map arg.length?)
  | 6, .number n _ => some (.tag n)
  | 7, arg => some (.ofOther arg)
  | _, _ => none

/-- Reads a head. -/
def Head.read : List UInt8 → Option (Head × List UInt8)
  | [] => none
  | b :: bs =>
    match Argument.read (b.toNat % 32) bs with
    | some (arg, rest) => (Head.ofParts? (b.toNat / 32) arg).map (·, rest)
    | none => none

/-- The length of a segment of a string, when the head is one of this string type. -/
def Head.segment? (isText : Bool) : Head → Option (Option Nat)
  | .bytes len => if isText then none else some len
  | .text len => if isText then some len else none
  | _ => none

/-- The segments of a string up to the stop of the outermost level. Levels without a length may be nested. -/
def readSegments (isText : Bool) : (fuel level : Nat) → List UInt8 → Option (List (List UInt8) × List UInt8)
  | 0, _, _ => none
  | fuel + 1, level, bs =>
    match Head.read bs with
    | none => none
    | some (.stop, rest) => if level ≤ 1 then some ([], rest) else readSegments isText fuel (level - 1) rest
    | some (head, rest) =>
      match head.segment? isText with
      | none => none
      | some none => readSegments isText fuel (level + 1) rest
      | some (some len) =>
        match Octets.take? len rest with
        | none => none
        | some (segment, rest) =>
          (readSegments isText fuel level rest).map fun (more, rest) => (segment :: more, rest)

/-- The segments of a string after its head. -/
def readString (isText : Bool) (len : Option Nat) (bs : List UInt8) :
    Option (List (List UInt8) × List UInt8) :=
  match len with
  | some n => (Octets.take? n bs).map fun (segment, rest) => ([segment], rest)
  | none => readSegments isText (bs.length + 1) 1 bs

/-- The text of segments that are texts each by itself. -/
def joinTexts (segments : List (List UInt8)) : Option String :=
  (segments.mapM Utf8.decode?).map fun parts => String.ofList parts.flatten

/-- The value of a simple number. -/
def simpleItem? (n : Nat) : Option Item :=
  if n = 20 then some (.bool false)
  else if n = 21 then some (.bool true)
  else if n = 22 ∨ n = 23 then some .null
  else none

/-- The octets without zeros in front. -/
def dropZeros (bs : List UInt8) : List UInt8 := bs.dropWhile (· = 0)

/-- A tagged byte string of at most 16 octets as a number. Beyond the integers it stays tagged; a negative one
must fit 128 bits with its sign. -/
def bignumItem? (tag : Nat) (bs : List UInt8) : Option Item :=
  let n := Octets.bigEndian bs
  if tag = positiveBignum then
    some (if n < 0x10000000000000000 then .int n else .tag tag (.bytes (dropZeros bs)))
  else if n < 0x10000000000000000 then some (.int (-1 - n))
  else if n < Nat.pow 2 127 then some (.tag tag (.bytes (dropZeros bs)))
  else none

/-- The octets of a definite byte string of at most 16 octets in front. -/
def shortBytes? (bs : List UInt8) : Option (List UInt8 × List UInt8) :=
  match Head.read bs with
  | some (.bytes (some len), rest) => if len ≤ 16 then Octets.take? len rest else none
  | _ => none

/-- Whether a definite byte string of at most 16 octets is announced in front. -/
def startsShortBytes (bs : List UInt8) : Bool :=
  match Head.read bs with
  | some (.bytes (some len), _) => len ≤ 16
  | _ => false

mutual

/-- Reads an item with at most `levels` arrays, maps and tags inside each other. -/
def Item.read : (fuel levels : Nat) → List UInt8 → Option (Item × List UInt8)
  | 0, _, _ => none
  | fuel + 1, levels, bs =>
    match Head.read bs with
    | none => none
    | some (.positive n, rest) => some (.int n, rest)
    | some (.negative n, rest) => some (.int (-1 - n), rest)
    | some (.bytes len, rest) => (readString false len rest).map fun (ss, rest) => (.bytes ss.flatten, rest)
    | some (.text len, rest) =>
      match readString true len rest with
      | none => none
      | some (ss, rest) => (joinTexts ss).map fun s => (.text s, rest)
    | some (.array len, rest) =>
      if levels = 0 then none
      else (Item.readMany fuel (levels - 1) len rest).map fun (items, rest) => (.array items, rest)
    | some (.map len, rest) =>
      if levels = 0 then none
      else (Item.readEntries fuel (levels - 1) len rest).map fun (entries, rest) => (.map entries, rest)
    | some (.tag n, rest) =>
      if (n = positiveBignum ∨ n = negativeBignum) ∧ startsShortBytes rest then
        match shortBytes? rest with
        | none => none
        | some (octets, rest) => (bignumItem? n octets).map (·, rest)
      else if levels = 0 then none
      else (Item.read fuel (levels - 1) rest).map fun (item, rest) => (.tag n item, rest)
    | some (.simple n, rest) => (simpleItem? n).map (·, rest)
    | some (.float x, rest) => some (.float x, rest)
    | some (.stop, _) => none

/-- Reads items: so many, or without a count up to the stop. -/
def Item.readMany : (fuel levels : Nat) → Option Nat → List UInt8 → Option (List Item × List UInt8)
  | 0, _, _, _ => none
  | fuel + 1, levels, count, bs =>
    match count, bs with
    | some 0, bs => some ([], bs)
    | none, 0xFF :: rest => some ([], rest)
    | count, bs =>
      match Item.read fuel levels bs with
      | none => none
      | some (item, rest) =>
        (Item.readMany fuel levels (count.map (· - 1)) rest).map fun (items, rest) => (item :: items, rest)

/-- Reads pairs of items: so many, or without a count up to a stop in place of a key. -/
def Item.readEntries : (fuel levels : Nat) → Option Nat → List UInt8 → Option (List (Item × Item) × List UInt8)
  | 0, _, _, _ => none
  | fuel + 1, levels, count, bs =>
    match count, bs with
    | some 0, bs => some ([], bs)
    | none, 0xFF :: rest => some ([], rest)
    | count, bs =>
      match Item.read fuel levels bs with
      | none => none
      | some (key, rest) =>
        match Item.read fuel levels rest with
        | none => none
        | some (value, rest) =>
          (Item.readEntries fuel levels (count.map (· - 1)) rest).map fun (entries, rest) =>
            ((key, value) :: entries, rest)

end

/-- How deep arrays, maps and tags may lie inside each other. -/
def maxLevels : Nat := 256

/-- The item in front of some octets. -/
def Item.decode? (bs : List UInt8) : Option Item :=
  (Item.read (2 * bs.length + 2) maxLevels bs).map (·.1)

end Cbor
end OracleRelay
