/-
# Characters as octets and back

The octets of a character are read back as that character, whatever follows them (`next_encodeChar`); so the octets of
a text are read back as the text, by the strict reader and by the lossy one. A plain octet is no part of a longer
character, so octets can be cut at one wherever it stands, even among octets that hold no character
(`decodeLossy_append_plain`). The octets of a string are those that the runtime keeps for it (`ofString_eq_toUTF8`).

Key theorems: `Utf8.next_encodeChar`, `Utf8.scan_encode`, `Utf8.decode?_encode`, `Utf8.decodeLossy_encode`,
`Utf8.ofString_eq_toUTF8`, `Utf8.decodeLossy_append_plain`.
-/
import Mathlib.Tactic.IntervalCases
import OracleRelay.Proofs.Text.Octets
import OracleRelay.Text.Utf8

namespace OracleRelay
namespace Utf8

/-- A tail within the range that is owed puts six bits behind the others. -/
theorem takeTails_cons {owed low high acc t : Nat} (ge : low ≤ t) (le : t ≤ high) (octet : t < 256)
    (bs : List UInt8) : takeTails (owed + 1) low high acc (UInt8.ofNat t :: bs) =
      takeTails owed 0x80 0xBF (acc * 64 + (t - 0x80)) bs := by
  rw [takeTails, Octets.toNat_ofNat octet, if_pos ⟨ge, le⟩]

/-- A first octet, and the tails that it announces, make a character. -/
theorem next_of_lead {b : Nat} {l : Lead} {n : Nat} {bs rest : List UInt8} (octet : b < 256) (lead : lead? b = some l)
    (tails : takeTails l.tails l.low l.high l.bits bs = (some n, rest)) :
    next (UInt8.ofNat b) bs = (some (Char.ofNat n), rest) := by
  rw [next, Octets.toNat_ofNat octet, lead]
  simp only [tails]

/-- No character lies among the surrogates or beyond the last plane. -/
theorem toNat_valid (c : Char) : c.toNat < 0xD800 ∨ 0xDFFF < c.toNat ∧ c.toNat < 0x110000 := c.valid

theorem lead?_two {k : Nat} (ge : 2 ≤ k) (lt : k < 32) : lead? (0xC0 + k) = some ⟨k, 1, 0x80, 0xBF⟩ := by
  interval_cases k <;> rfl

theorem lead?_three {k : Nat} (lt : k < 16) : lead? (0xE0 + k) =
    some ⟨k, 2, if k = 0 then 0xA0 else 0x80, if k = 13 then 0x9F else 0xBF⟩ := by
  interval_cases k <;> rfl

theorem lead?_four {k : Nat} (le : k ≤ 4) : lead? (0xF0 + k) =
    some ⟨k, 3, if k = 0 then 0x90 else 0x80, if k = 4 then 0x8F else 0xBF⟩ := by
  interval_cases k <;> rfl

/-- The octets of a character are read as that character. -/
theorem next_encodeChar (c : Char) :
    ∃ b bs, encodeChar c = b :: bs ∧ ∀ rest, next b (bs ++ rest) = (some c, rest) := by
  have valid := toNat_valid c
  have self : Char.ofNat c.toNat = c := Char.ofNat_toNat c
  unfold encodeChar
  simp only
  generalize c.toNat = n at valid self
  split
  case isTrue one =>
    refine ⟨_, _, rfl, fun rest => ?_⟩
    rw [← self]
    exact next_of_lead (l := ⟨n, 0, 0x80, 0xBF⟩) (by omega) (by rw [lead?, if_pos one]) rfl
  case isFalse =>
  split
  case isTrue two =>
    refine ⟨_, _, rfl, fun rest => ?_⟩
    rw [← self]
    refine next_of_lead (by omega) (lead?_two (by omega) (by omega)) ?_
    dsimp only
    rw [List.cons_append, takeTails_cons (by omega) (by omega) (by omega), takeTails]
    exact Prod.ext (congrArg some (by omega)) rfl
  case isFalse =>
  split
  case isTrue three =>
    refine ⟨_, _, rfl, fun rest => ?_⟩
    rw [← self]
    refine next_of_lead (by omega) (lead?_three (by omega)) ?_
    -- The first tail keeps overlong forms out after 0xE0, and surrogates out after 0xED.
    dsimp only
    rw [List.cons_append, takeTails_cons (by split <;> omega) (by split <;> omega) (by omega), List.cons_append,
      takeTails_cons (by omega) (by omega) (by omega), takeTails]
    exact Prod.ext (congrArg some (by omega)) rfl
  case isFalse four =>
    refine ⟨_, _, rfl, fun rest => ?_⟩
    rw [← self]
    refine next_of_lead (by omega) (lead?_four (by omega)) ?_
    dsimp only
    rw [List.cons_append, takeTails_cons (by split <;> omega) (by split <;> omega) (by omega), List.cons_append,
      takeTails_cons (by omega) (by omega) (by omega), List.cons_append,
      takeTails_cons (by omega) (by omega) (by omega), takeTails]
    exact Prod.ext (congrArg some (by omega)) rfl

/-- The octets of a text are read as its characters. -/
theorem scan_encode (cs : List Char) : scan (encode cs) = cs.map some := by
  induction cs with
  | nil => simp [encode, scan]
  | cons c cs ih =>
    obtain ⟨b, bs, octets, reads⟩ := next_encodeChar c
    rw [encode, List.flatMap_cons, octets, List.cons_append, scan, reads]
    exact congrArg _ ih

/-- The strict reader gives a text back. -/
theorem decode?_encode (cs : List Char) : decode? (encode cs) = some cs := by
  rw [decode?, scan_encode]
  induction cs with
  | nil => rfl
  | cons c cs ih => simp [ih]

/-- So does the lossy one. -/
theorem decodeLossy_encode (cs : List Char) : decodeLossy (encode cs) = cs := by
  rw [decodeLossy, scan_encode, List.map_map]
  exact List.map_id cs

/-! ### Octets of the runtime -/

theorem encodeChar_eq_utf8EncodeChar (c : Char) : encodeChar c = String.utf8EncodeChar c := by
  have valid := toNat_valid c
  unfold encodeChar String.utf8EncodeChar
  change _ = if c.toNat ≤ 127 then _ else if c.toNat ≤ 2047 then _ else if c.toNat ≤ 65535 then _ else _
  simp only
  generalize hn : c.toNat = n at valid
  have hval : c.val.toNat = n := hn
  rw [hval]
  have one : n < 0x80 ↔ n ≤ 127 := by omega
  have two : n < 0x800 ↔ n ≤ 2047 := by omega
  have three : n < 0x10000 ↔ n ≤ 65535 := by omega
  simp only [one, two, three]
  -- The runtime cuts the first part to its bits, which by then it does not exceed.
  split_ifs with short middle long
  · rfl
  · have first : 0xC0 + n / 64 = n / 64 % 32 + 192 := by omega
    rw [first, Nat.add_comm 0x80]
  · have first : 0xE0 + n / 4096 = n / 4096 % 16 + 224 := by omega
    rw [first, Nat.add_comm 0x80, Nat.add_comm 0x80]
  · have first : 0xF0 + n / 262144 = n / 262144 % 8 + 240 := by omega
    rw [first, Nat.add_comm 0x80, Nat.add_comm 0x80, Nat.add_comm 0x80]

/-- **The octets of a string are those that the runtime keeps for it.** -/
theorem ofString_eq_toUTF8 (s : String) : ofString s = s.toUTF8.data.toList := by
  have octets : s.toUTF8.data.toList = s.toList.flatMap String.utf8EncodeChar := by
    rw [String.toUTF8_eq_toByteArray, ← String.utf8Encode_toList, List.utf8Encode, List.toList_data_toByteArray]
  have char : encodeChar = String.utf8EncodeChar := funext encodeChar_eq_utf8EncodeChar
  rw [octets, ofString, encode, char]

/-- Strings with the same octets are the same. -/
theorem ofString_inj {s t : String} : ofString s = ofString t ↔ s = t := by
  constructor
  · intro h
    have read : some s.toList = some t.toList := by rw [← decode?_encode, ← decode?_encode]; exact congrArg _ h
    exact String.toList_inj.mp (Option.some.inj read)
  · exact congrArg ofString

/-! ### Cuts -/

theorem takeTails_append_plain {b : UInt8} (plain : b.toNat < 0x80) (rest : List UInt8) :
    ∀ (owed low high acc : Nat) (bs : List UInt8), 0x80 ≤ low → takeTails owed low high acc (bs ++ b :: rest) =
      ((takeTails owed low high acc bs).1, (takeTails owed low high acc bs).2 ++ b :: rest)
  | 0, _, _, _, _, _ => by simp [takeTails]
  | owed + 1, low, high, acc, [], tail => by
    have refused : takeTails (owed + 1) low high acc (b :: rest) = (none, b :: rest) := if_neg (by omega)
    rw [List.nil_append, refused]
    rfl
  | owed + 1, low, high, acc, c :: bs, _ => by
    rw [List.cons_append, takeTails, takeTails]
    split
    · exact takeTails_append_plain plain rest owed 0x80 0xBF _ bs (Nat.le_refl _)
    · rfl

/-- Tails begin beyond the plain octets. -/
theorem low_of_lead? {b : Nat} {l : Lead} (h : lead? b = some l) : 0x80 ≤ l.low := by
  unfold lead? at h
  repeat' split at h
  all_goals simp only [reduceCtorEq, Option.some.injEq] at h
  all_goals simp [← h]

theorem next_append_plain {b : UInt8} (plain : b.toNat < 0x80) (rest : List UInt8) (c : UInt8) (bs : List UInt8) :
    next c (bs ++ b :: rest) = ((next c bs).1, (next c bs).2 ++ b :: rest) := by
  unfold next
  cases lead : lead? c.toNat with
  | none => rfl
  | some l =>
    simp only [takeTails_append_plain plain rest _ _ _ _ bs (low_of_lead? lead)]
    obtain ⟨taken, left⟩ := takeTails l.tails l.low l.high l.bits bs
    cases taken <;> rfl

/-- Octets can be cut at a plain octet, whatever stands before it. -/
theorem scan_append_plain {b : UInt8} (plain : b.toNat < 0x80) (rest : List UInt8) : ∀ bs : List UInt8,
    scan (bs ++ b :: rest) = scan bs ++ some (Char.ofNat b.toNat) :: scan rest
  | [] => by
    have lead : lead? b.toNat = some ⟨b.toNat, 0, 0x80, 0xBF⟩ := if_pos plain
    have first : next b rest = (some (Char.ofNat b.toNat), rest) := by
      simp only [next, lead, takeTails]
    have whole : scan (b :: rest) = some (Char.ofNat b.toNat) :: scan rest := by rw [scan, first]
    have nothing : scan [] = [] := by rw [scan]
    rw [List.nil_append, whole, nothing, List.nil_append]
  | c :: bs => by
    have shorter := next_length_le c bs
    have front : scan (c :: bs) = (next c bs).1 :: scan (next c bs).2 := by rw [scan]
    rw [front, List.cons_append, scan, next_append_plain plain, scan_append_plain plain rest (next c bs).2]
    rfl
termination_by bs => bs.length

theorem decodeLossy_append_plain {b : UInt8} (plain : b.toNat < 0x80) (bs rest : List UInt8) :
    decodeLossy (bs ++ b :: rest) = decodeLossy bs ++ Char.ofNat b.toNat :: decodeLossy rest := by
  rw [decodeLossy, scan_append_plain plain, List.map_append]
  rfl

end Utf8
end OracleRelay
