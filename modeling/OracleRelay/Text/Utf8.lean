/-
# UTF-8

Characters as octets and back. One octet sequence is read a character at a time; where it holds no
character, the octets up to the first that rules one out are skipped together, so a lossy reader puts one
replacement character for each such run and a strict reader refuses.

Key definitions: `Utf8.next`, `Utf8.decodeLossy`, `Utf8.decode?`, `Utf8.encode`.
-/

namespace OracleRelay
namespace Utf8

/-- What a first octet announces: the bits it holds, the octets that follow, and the range of the next one. -/
structure Lead where
  bits : Nat
  tails : Nat
  low : Nat
  high : Nat

/-- The character lengths by first octet. The ranges leave out overlong forms, surrogates and what lies
beyond the last character. -/
def lead? (b : Nat) : Option Lead :=
  if b < 0x80 then some ⟨b, 0, 0x80, 0xBF⟩
  else if b < 0xC2 then none
  else if b < 0xE0 then some ⟨b - 0xC0, 1, 0x80, 0xBF⟩
  else if b = 0xE0 then some ⟨0, 2, 0xA0, 0xBF⟩
  else if b = 0xED then some ⟨0xD, 2, 0x80, 0x9F⟩
  else if b < 0xF0 then some ⟨b - 0xE0, 2, 0x80, 0xBF⟩
  else if b = 0xF0 then some ⟨0, 3, 0x90, 0xBF⟩
  else if b < 0xF4 then some ⟨b - 0xF0, 3, 0x80, 0xBF⟩
  else if b = 0xF4 then some ⟨4, 3, 0x80, 0x8F⟩
  else none

/-- Takes the octets that are owed, the first of them within `low` and `high`. Gives the code point, if all
are there, and the octets that were not taken. -/
def takeTails : (owed low high acc : Nat) → List UInt8 → Option Nat × List UInt8
  | 0, _, _, acc, bs => (some acc, bs)
  | _ + 1, _, _, _, [] => (none, [])
  | n + 1, low, high, acc, b :: bs =>
    if low ≤ b.toNat ∧ b.toNat ≤ high then takeTails n 0x80 0xBF (acc * 64 + (b.toNat - 0x80)) bs
    else (none, b :: bs)

/-- The tails taken are an initial part. -/
theorem takeTails_length_le (n low high acc : Nat) (bs : List UInt8) :
    (takeTails n low high acc bs).2.length ≤ bs.length := by
  induction n generalizing low high acc bs with
  | zero => simp [takeTails]
  | succ n ih =>
    cases bs with
    | nil => simp [takeTails]
    | cons b bs =>
      simp only [takeTails]
      split
      · exact Nat.le_succ_of_le (ih _ _ _ _)
      · simp

/-- The character that starts with octet `b`, or none where no character does, and the octets after it. -/
def next (b : UInt8) (bs : List UInt8) : Option Char × List UInt8 :=
  match lead? b.toNat with
  | none => (none, bs)
  | some l =>
    match takeTails l.tails l.low l.high l.bits bs with
    | (some n, rest) => (some (Char.ofNat n), rest)
    | (none, rest) => (none, rest)

theorem next_length_le (b : UInt8) (bs : List UInt8) : (next b bs).2.length ≤ bs.length := by
  unfold next
  split
  · simp
  · rename_i l _
    have h := takeTails_length_le l.tails l.low l.high l.bits bs
    split <;> simp_all

/-- The characters, none for each run of octets that holds no character. -/
def scan : List UInt8 → List (Option Char)
  | [] => []
  | b :: bs => (next b bs).1 :: scan (next b bs).2
termination_by bs => bs.length
decreasing_by exact Nat.lt_succ_of_le (next_length_le b bs)

/-- Every run that holds no character becomes one replacement character. -/
def decodeLossy (bs : List UInt8) : List Char := (scan bs).map (·.getD '\uFFFD')

/-- The characters, if every octet belongs to one. -/
def decode? (bs : List UInt8) : Option (List Char) := (scan bs).mapM id

/-- The octets of a character. -/
def encodeChar (c : Char) : List UInt8 :=
  let n := c.toNat
  if n < 0x80 then [UInt8.ofNat n]
  else if n < 0x800 then [UInt8.ofNat (0xC0 + n / 64), UInt8.ofNat (0x80 + n % 64)]
  else if n < 0x10000 then
    [UInt8.ofNat (0xE0 + n / 4096), UInt8.ofNat (0x80 + n / 64 % 64), UInt8.ofNat (0x80 + n % 64)]
  else
    [UInt8.ofNat (0xF0 + n / 262144), UInt8.ofNat (0x80 + n / 4096 % 64), UInt8.ofNat (0x80 + n / 64 % 64),
      UInt8.ofNat (0x80 + n % 64)]

/-- The octets of a text. -/
def encode (cs : List Char) : List UInt8 := cs.flatMap encodeChar

/-- The octets of a string. -/
def ofString (s : String) : List UInt8 := encode s.toList

/-- The string that octets spell, if they spell one. -/
def toString? (bs : List UInt8) : Option String := (decode? bs).map String.ofList

/-- The string that octets spell, with replacement characters. -/
def toStringLossy (bs : List UInt8) : String := String.ofList (decodeLossy bs)

end Utf8
end OracleRelay
