/-
# Hosts

The host part of an address: a name, a number of four parts, or a number of eight parts between brackets. A
name is read without its percent escapes and in lower case; signs that have a meaning elsewhere in an
address are refused in it. A name whose last part is a number must be a number of four parts as a whole.

Key definitions: `Url.Fault`, `Url.isIpv6`, `Url.isIpv4`, `Url.Host.check`.
-/
import OracleRelay.Text.Numeral
import OracleRelay.Text.Utf8

namespace OracleRelay
namespace Url

/-- Why a text is no address. -/
inductive Fault where
  | relative
  | emptyHost
  | invalidPort
  | invalidIpv4
  | invalidIpv6
  | invalidName
  | invalidHostCharacter
  deriving DecidableEq, Repr

/-- The text of a fault. -/
def Fault.message : Fault → String
  | .relative => "relative URL without a base"
  | .emptyHost => "empty host"
  | .invalidPort => "invalid port number"
  | .invalidIpv4 => "invalid IPv4 address"
  | .invalidIpv6 => "invalid IPv6 address"
  | .invalidName => "invalid international domain name"
  | .invalidHostCharacter => "invalid domain character"

/-- A part of a number of four parts: with `0x` in front hexadecimal, with a zero in front octal. -/
def ipv4Part? (cs : List Char) : Option Nat :=
  match cs with
  | [] => none
  | '0' :: 'x' :: rest | '0' :: 'X' :: rest => if rest.isEmpty then some 0 else Numeral.value? 16 rest
  | '0' :: d :: rest => Numeral.value? 8 (d :: rest)
  | _ => Numeral.value? 10 cs

/-- The parts of a name between points. -/
def splitPoints (cs : List Char) : List (List Char) :=
  cs.foldr (fun c parts =>
    if c = '.' then [] :: parts
    else match parts with
      | p :: ps => (c :: p) :: ps
      | [] => [[c]]) [[]]

/-- The parts of a name without an empty last one. -/
def nameParts (cs : List Char) : List (List Char) :=
  match (splitPoints cs).reverse with
  | [] :: p :: ps => (p :: ps).reverse
  | parts => parts.reverse

/-- Whether the last part of a name is a number. -/
def endsInNumber (cs : List Char) : Bool :=
  match (nameParts cs).getLast? with
  | none => false
  | some last => (!last.isEmpty && last.all Char.isDigit) || (ipv4Part? last).isSome

/-- Whether a name is a number of at most four parts: each but the last below 256, the last below what the
others leave. -/
def isIpv4 (cs : List Char) : Bool :=
  let parts := nameParts cs
  match (parts.mapM ipv4Part?).map List.reverse with
  | some (last :: before) => parts.length ≤ 4 && before.all (· < 256) && last < Nat.pow 256 (4 - before.length)
  | _ => false

/-- The four decimal parts at the end of a number of eight parts: each below 256 without a zero in front. -/
def isDottedQuad (cs : List Char) : Bool :=
  let parts := splitPoints cs
  parts.length = 4 && parts.all fun p =>
    p.all Char.isDigit && p.length ≤ 3 && (p.length = 1 || p.head? ≠ some '0') &&
      ((Numeral.value? 10 p).any (· < 256))

/-- Whether groups of up to four digits, from the group number `count` on, make eight parts. One empty group
may stand for the parts that are missing. -/
def ipv6From : (fuel count : Nat) → (shortened : Bool) → List Char → Bool
  | 0, _, _, _ => false
  | _ + 1, count, shortened, [] => shortened || count = 8
  | fuel + 1, count, shortened, c :: cs =>
    if count = 8 then false
    else if c = ':' then !shortened && ipv6From fuel (count + 1) true cs
    else
      let digits := ((c :: cs).take 4).takeWhile fun d => (Numeral.digit? 16 d).isSome
      match (c :: cs).drop digits.length with
      | [] => ipv6From fuel (count + 1) shortened []
      | '.' :: _ =>
        !digits.isEmpty && count ≤ 6 && isDottedQuad (c :: cs) && (shortened || count + 2 = 8)
      | ':' :: rest => !rest.isEmpty && ipv6From fuel (count + 1) shortened rest
      | _ => false

/-- Whether the text between brackets is a number of eight parts. -/
def isIpv6 : List Char → Bool
  | ':' :: ':' :: rest => ipv6From (rest.length + 2) 1 true rest
  | ':' :: _ => false
  | [_] => false
  | cs => ipv6From (cs.length + 2) 0 false cs

/-- Octets with percent escapes read. A sign that no two digits follow stands for itself. -/
def percentDecode : List UInt8 → List UInt8
  | [] => []
  | 0x25 :: a :: b :: rest =>
    match Numeral.digit? 16 (Char.ofNat a.toNat), Numeral.digit? 16 (Char.ofNat b.toNat) with
    | some x, some y => UInt8.ofNat (x * 16 + y) :: percentDecode rest
    | _, _ => 0x25 :: percentDecode (a :: b :: rest)
  | c :: rest => c :: percentDecode rest

/-- Signs below the letters that a name must not hold: controls, the blank and those with a meaning in an
address. -/
def isForbiddenInName (c : Char) : Bool :=
  c.toNat ≤ 0x20 || c.toNat = 0x7F || "%#/:<>?@[\\]^|".toList.contains c

/-- How a character beyond the first 128 counts in a name: not at all, as another one, as itself, or as a
mistake. -/
def foldNameChar (c : Char) : Option (List Char) :=
  let n := c.toNat
  if n < 0x80 then some [c.toLower]
  else if n = 0xAD ∨ n = 0x200B ∨ n = 0x2060 ∨ n = 0xFEFF ∨ (0xFE00 ≤ n ∧ n ≤ 0xFE0F) then some []
  else if n = 0x3002 ∨ n = 0xFF0E ∨ n = 0xFF61 then some ['.']
  else if 0xFF01 ≤ n ∧ n ≤ 0xFF5E then some [(Char.ofNat (n - 0xFEE0)).toLower]
  else if n < 0xA0 ∨ n = 0xFFFD ∨ (0xE000 ≤ n ∧ n ≤ 0xF8FF) ∨ 0xE0000 ≤ n then none
  else if n = 0xA0 ∨ (0x2000 ≤ n ∧ n ≤ 0x200A) ∨ n = 0x202F ∨ n = 0x205F ∨ n = 0x3000 then some [' ']
  else if (0x200E ≤ n ∧ n ≤ 0x200F) ∨ (0x2028 ≤ n ∧ n ≤ 0x202E) ∨ (0x2061 ≤ n ∧ n ≤ 0x206F) then none
  else some [c]

/-- The threshold of the digit number `k` of a variable-length integer. -/
def threshold (k bias : Nat) : Nat := if k ≤ bias then 1 else if bias + 26 ≤ k then 26 else k - bias

/-- The value of a digit of base 36, letters first. -/
def digit36? (c : Char) : Option Nat :=
  if 'a' ≤ c ∧ c ≤ 'z' then some (c.toNat - 97)
  else if '0' ≤ c ∧ c ≤ '9' then some (c.toNat - 22)
  else none

/-- Halves a difference until the next bias follows from it. -/
def settle (delta k : Nat) : Nat × Nat := if 455 < delta then settle (delta / 35) (k + 36) else (delta, k)
termination_by delta
decreasing_by exact Nat.div_lt_self (by omega) (by omega)

/-- The bias after a difference, of which `points` code points are known. -/
def nextBias (delta points : Nat) (isFirst : Bool) : Nat :=
  let d := if isFirst then delta / 700 else delta / 2
  let (d, k) := settle (d + d / points) 0
  k + 36 * d / (d + 38)

/-- The code points beyond the first 128 that the second half of an encoded part adds to `count` others. -/
def addedPoints (count n i bias : Nat) (isFirst : Bool) (old w k : Nat) : List Char → Option (List Nat)
  | [] => if k = 36 then some [] else none
  | c :: cs =>
    match digit36? c with
    | none => none
    | some d =>
      let i := i + d * w
      if threshold k bias ≤ d then
        addedPoints count n i bias isFirst old (w * (36 - threshold k bias)) (k + 36) cs
      else
        let count := count + 1
        let n := n + i / count
        let pos := i % count
        if 0x10FFFF < n ∨ (0xD800 ≤ n ∧ n ≤ 0xDFFF) then none
        else (addedPoints count n (pos + 1) (nextBias (i - old) count isFirst) false (pos + 1) 1 36 cs).map (n :: ·)

/-- Whether the part of a name behind the mark of encoded parts stands for at least one character beyond
the first 128, each of them one that counts as itself. -/
def isEncodedPart (cs : List Char) : Bool :=
  let tail := (cs.reverse.takeWhile (· ≠ '-')).reverse
  let basic := cs.take (cs.length - tail.length - 1)
  match addedPoints basic.length 128 0 72 true 0 1 36 tail with
  | some (n :: ns) => (n :: ns).all fun p => foldNameChar (Char.ofNat p) = some [Char.ofNat p]
  | _ => false

/-- Whether a part of a name is in order: an encoded part stands for something, and no mark that combines
with the character before it comes first. -/
def isNamePart (cs : List Char) : Bool :=
  match cs with
  | 'x' :: 'n' :: '-' :: '-' :: rest => isEncodedPart rest
  | c :: _ => !(0x300 ≤ c.toNat && c.toNat ≤ 0x36F)
  | [] => true

/-- The name that a text spells as a host. -/
def foldName (s : List Char) : Except Fault (List Char) :=
  match Utf8.decode? (percentDecode (Utf8.encode s)) with
  | none => .error .invalidName
  | some cs =>
    match cs.mapM foldNameChar with
    | none => .error .invalidName
    | some folded =>
      let name := folded.flatten
      if name.any isForbiddenInName || !(splitPoints name).all isNamePart then .error .invalidName
      else .ok name

/-- Whether the text is a number of eight parts in brackets. -/
def checkBrackets (cs : List Char) : Except Fault Unit :=
  match cs.reverse with
  | ']' :: inner => if isIpv6 inner.reverse then .ok () else .error .invalidIpv6
  | _ => .error .invalidIpv6

/-- Whether a text is the host of an address that names a server. -/
def checkHost : List Char → Except Fault Unit
  | '[' :: rest => checkBrackets rest
  | cs =>
    match foldName cs with
    | .error e => .error e
    | .ok name =>
      if name.isEmpty then .error .emptyHost
      else if endsInNumber name then (if isIpv4 name then .ok () else .error .invalidIpv4)
      else .ok ()

/-- Whether a text is the host of an address of some other scheme. -/
def checkOpaqueHost : List Char → Except Fault Unit
  | '[' :: rest => checkBrackets rest
  | cs =>
    if cs.any fun c => "\x00\t\n\r #/:<>?@[\\]^|".toList.contains c then .error .invalidHostCharacter
    else .ok ()

end Url
end OracleRelay
