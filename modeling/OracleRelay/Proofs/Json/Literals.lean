/-
# Literals read back

A string is read back from its literal, whatever characters it is made of (`Json.Literal.readText_quote`), and an integer
of 64 bits from its numeral, if nothing behind it can be taken for more of the number (`Json.Literal.readNumber_print`).
The other way round, an integer that a number literal is read as has 64 bits (`Json.Literal.sized_of_readNumber`).

Key definitions: `Json.Number.Sized`, `Json.Number.Whole`, `Json.Number.Exact`, `Json.Ends`.
Key theorems: `Json.Literal.readText_quote`, `Json.Literal.readNumber_print`, `Json.Literal.sized_of_readNumber`.
-/
import OracleRelay.Json.Literal
import OracleRelay.Json.Printer
import OracleRelay.Proofs.Text.Numeral

namespace OracleRelay
namespace Json

/-! ### Numbers of 64 bits -/

/-- An integer has 64 bits, with a sign or without one. -/
def Number.Sized : Number → Prop
  | .int n => -0x8000000000000000 ≤ n ∧ n < 0x10000000000000000
  | .double _ => True

/-- The number is an integer. -/
def Number.Whole : Number → Prop
  | .int _ => True
  | .double _ => False

/-- The number is an integer of 64 bits. -/
def Number.Exact (n : Number) : Prop := n.Sized ∧ n.Whole

/-- What may stand behind a value: nothing, or what parts it from the next value or closes the row that it is in. -/
def Ends (rest : List Char) : Prop := ∀ c ∈ rest.head?, c = ',' ∨ c = ']' ∨ c = '\x7d'

namespace Literal

/-! ### Strings -/

theorem unit?_hexDigits : ∀ n < 0x20, unit? '0' '0' (hexDigit (n / 16)) (hexDigit (n % 16)) = some n := by decide

/-- A character that is neither escaped nor a control character is read as it stands. -/
theorem readPieces_plain {c : Char} (quote : c ≠ '"') (backslash : c ≠ '\\') (printable : 0x20 ≤ c.toNat)
    (rest : List Char) :
    readPieces (c :: rest) = (readPieces rest).map fun read => (.char c :: read.1, read.2) := by
  have other : ¬ (c.toNat < 0x20 ∨ c = '\\') := by
    rintro (control | same)
    · omega
    · exact backslash same
  rw [readPieces, if_neg other]
  · cases readPieces rest <;> rfl
  · exact quote
  · exact fun _ _ _ _ _ same _ => backslash same
  · exact fun _ _ same _ => backslash same

/-- A character that is written behind a backslash is read as the character that the two stand for. -/
theorem readPieces_escaped {c e : Char} (stands : escaped? e = some c) (rest : List Char) :
    readPieces ('\\' :: e :: rest) = (readPieces rest).map fun read => (.char c :: read.1, read.2) := by
  have letter : e ≠ 'u' := by
    rintro rfl
    rw [show escaped? 'u' = none by decide] at stands
    cases stands
  rw [readPieces, stands]
  · cases readPieces rest <;> rfl
  · exact fun _ _ _ _ _ same _ => letter same

/-- A unit is read as its number. -/
theorem readPieces_unit {a b c d : Char} {n : Nat} (unit : unit? a b c d = some n) (rest : List Char) :
    readPieces ('\\' :: 'u' :: a :: b :: c :: d :: rest) =
      (readPieces rest).map fun read => (.unit n :: read.1, read.2) := by
  rw [readPieces, unit]
  cases readPieces rest <;> rfl

/-- A unit below the halves of pairs is a character. -/
theorem joinUnits_unit {n : Nat} (low : n < 0xD800) (pieces : List Piece) :
    joinUnits (.unit n :: pieces) = (joinUnits pieces).map (Char.ofNat n :: ·) := by
  have high : ¬ (0xD800 ≤ n ∧ n ≤ 0xDBFF) := by omega
  have half : ¬ (0xDC00 ≤ n ∧ n ≤ 0xDFFF) := by omega
  rw [joinUnits.eq_def]
  simp only [if_neg high, if_neg half]

/-- What is written for a character is read as one piece that stands for it. -/
theorem exists_piece (c : Char) : ∃ piece, (∀ pieces, joinUnits (piece :: pieces) = (joinUnits pieces).map (c :: ·)) ∧
    ∀ rest, readPieces (escape c ++ rest) = (readPieces rest).map fun read => (piece :: read.1, read.2) := by
  have short {e : Char} (stands : escaped? e = some c) : ∃ piece,
      (∀ pieces, joinUnits (piece :: pieces) = (joinUnits pieces).map (c :: ·)) ∧ ∀ rest,
        readPieces (['\\', e] ++ rest) = (readPieces rest).map fun read => (piece :: read.1, read.2) :=
    ⟨.char c, fun _ => rfl, readPieces_escaped stands⟩
  unfold escape
  split_ifs with quote backslash printable back tab line form carriage
  · exact short (by rw [quote]; rfl)
  · exact short (by rw [backslash]; rfl)
  · exact ⟨.char c, fun _ => rfl, readPieces_plain quote backslash printable⟩
  · exact short (by rw [back]; rfl)
  · exact short (by rw [tab]; rfl)
  · exact short (by rw [line]; rfl)
  · exact short (by rw [form]; rfl)
  · exact short (by rw [carriage]; rfl)
  · have control : c.toNat < 0x20 := not_le.mp printable
    refine ⟨.unit c.toNat, fun pieces => ?_, readPieces_unit (unit?_hexDigits _ control)⟩
    rw [joinUnits_unit (by omega), Char.ofNat_toNat]

theorem readPieces_flatMap (rest : List Char) : ∀ cs : List Char, ∃ pieces,
    readPieces (cs.flatMap escape ++ '"' :: rest) = some (pieces, rest) ∧ joinUnits pieces = some cs
  | [] => ⟨[], by rw [List.flatMap_nil, List.nil_append, readPieces], rfl⟩
  | c :: cs => by
    obtain ⟨pieces, read, joined⟩ := readPieces_flatMap rest cs
    obtain ⟨piece, stands, reads⟩ := exists_piece c
    refine ⟨piece :: pieces, ?_, ?_⟩
    · rw [List.flatMap_cons, List.append_assoc, reads, read]
      rfl
    · rw [stands, joined]
      rfl

/-- **A string is read back from its literal.** -/
theorem readText_quote (s : String) (rest : List Char) :
    readText (s.toList.flatMap escape ++ '"' :: rest) = some (some s, rest) := by
  obtain ⟨pieces, read, joined⟩ := readPieces_flatMap rest s.toList
  rw [readText, read, Option.map_some]
  simp only [joined, Option.map_some, String.ofList_toList]

/-! ### Digits -/

/-- The number that digits are read on to, the most significant first. -/
def valueFrom (n : Nat) (digits : List Nat) : Nat := digits.foldl (fun n d => n * 10 + d) n

theorem valueFrom_cons (n d : Nat) (ds : List Nat) : valueFrom n (d :: ds) = valueFrom (n * 10 + d) ds := rfl

theorem le_valueFrom (ds : List Nat) : ∀ n, n ≤ valueFrom n ds := by
  induction ds with
  | nil => exact Nat.le_refl
  | cons d ds ih =>
    intro n
    have step := ih (n * 10 + d)
    rw [valueFrom_cons]
    omega

/-- A numeral is digits that give the number, without a zero in front of others. -/
theorem exists_digits (n : Nat) : ∃ ds : List Nat, Numeral.render 10 n = ds.map Numeral.digitChar ∧ ds ≠ [] ∧
    (∀ d ∈ ds, d < 10) ∧ (0 < n → ds.head? ≠ some 0) ∧ (n < 10 → ds = [n]) ∧ valueFrom 0 ds = n := by
  induction n using Numeral.digitsInduction (by decide : 2 ≤ 10) with
  | digit d small =>
    refine ⟨[d], Numeral.render_of_lt small, by simp, by simpa using small, ?_, fun _ => rfl, ?_⟩
    · intro pos zero
      exact absurd (Option.some.inj zero) (Nat.ne_of_gt pos)
    · exact Nat.zero_add d
  | concat n d pos small ih =>
    obtain ⟨ds, numeral, nonempty, digits, lead, -, value⟩ := ih
    refine ⟨ds ++ [d], ?_, by simp, ?_, fun _ => ?_, fun less => ?_, ?_⟩
    · rw [Numeral.render_concat (by decide) pos small, numeral, List.map_append]
      rfl
    · intro d' hd'
      rcases List.mem_append.mp hd' with front | last
      · exact digits d' front
      · rw [List.mem_singleton.mp last]
        exact small
    · rw [List.head?_append_of_ne_nil ds nonempty]
      exact lead pos
    · omega
    · rw [valueFrom, List.foldl_append]
      show valueFrom 0 ds * 10 + d = n * 10 + d
      rw [value]

theorem takeDigits_append {rest : List Char} (stop : takeDigits rest = ([], rest)) : ∀ {ds : List Nat},
    (∀ d ∈ ds, d < 10) → takeDigits (ds.map Numeral.digitChar ++ rest) = (ds, rest)
  | [], _ => stop
  | d :: ds, digits => by
    have first : Numeral.digit? 10 (Numeral.digitChar d) = some d :=
      Numeral.digit?_digitChar (by decide) (digits d List.mem_cons_self)
    have later := takeDigits_append stop fun d' hd' => digits d' (List.mem_cons_of_mem d hd')
    rw [List.map_cons, List.cons_append, takeDigits, first, later]

/-- Digits are taken into the significand as long as the number fits. -/
theorem absorb_eq {ds : List Nat} : ∀ {n : Nat}, valueFrom n ds < 0x10000000000000000 →
    absorb n ds = (valueFrom n ds, 0) := by
  induction ds with
  | nil => exact fun _ => rfl
  | cons d ds ih =>
    intro n fits
    rw [valueFrom_cons] at fits ⊢
    have small : n * 10 + d < 0x10000000000000000 := lt_of_le_of_lt (le_valueFrom ds _) fits
    rw [absorb, if_pos small, ih fits]

/-! ### Integers -/

/-- What ends a value is no more of a number. -/
theorem not_more {rest : List Char} (ends : Ends rest) : takeDigits rest = ([], rest) ∧
    readFraction rest = some (none, rest) ∧ readExponent rest = some (none, rest) := by
  cases rest with
  | nil => exact ⟨rfl, rfl, rfl⟩
  | cons c rest =>
    rcases ends c rfl with rfl | rfl | rfl
    · exact ⟨rfl, rfl, rfl⟩
    · exact ⟨rfl, rfl, rfl⟩
    · exact ⟨rfl, rfl, rfl⟩

/-- A numeral is read as the number that its digits give. -/
theorem readMagnitude_render {rest : List Char} (ends : Ends rest) (negative : Bool) (n : Nat) : ∃ ds,
    valueFrom 0 ds = n ∧
      readMagnitude negative (Numeral.render 10 n ++ rest) = some (numberValue? negative ds none none, rest) := by
  obtain ⟨ds, numeral, nonempty, digits, lead, single, value⟩ := exists_digits n
  obtain ⟨stop, fraction, exponent⟩ := not_more ends
  refine ⟨ds, value, ?_⟩
  rw [readMagnitude, numeral, takeDigits_append stop digits]
  split
  · rename_i empty
    exact absurd (congrArg Prod.fst empty) nonempty
  · -- A zero stands in front of other digits in no numeral.
    rename_i d ds' _ zero
    have same : ds = 0 :: d :: ds' := congrArg Prod.fst zero
    rcases Nat.eq_zero_or_pos n with rfl | pos
    · have one := single (by decide)
      rw [same] at one
      cases one
    · rw [same] at lead
      exact absurd rfl (lead pos)
  · rename_i same
    cases same
    simp only [fraction, exponent]

/-- **An integer of 64 bits is read back from its numeral.** -/
theorem readNumber_print {n : Number} (integer : n.Exact) {rest : List Char} (ends : Ends rest) :
    readNumber (n.print ++ rest) = some (some n, rest) := by
  obtain ⟨sized, whole⟩ := integer
  cases n with
  | double x => exact whole.elim
  | int n =>
    obtain ⟨low, high⟩ := sized
    cases n with
    | ofNat k =>
      obtain ⟨ds, value, read⟩ := readMagnitude_render ends false k
      have fits : valueFrom 0 ds < 0x10000000000000000 := by
        rw [value]
        exact Int.ofNat_lt.mp high
      have unsigned : readNumber (Numeral.render 10 k ++ rest) = readMagnitude false (Numeral.render 10 k ++ rest) := by
        unfold readNumber
        split
        · rename_i cs minus
          have digit : Numeral.value? 10 (Numeral.render 10 k) = some k := Numeral.value?_render (by decide) (by decide) k
          cases h : Numeral.render 10 k with
          | nil => exact absurd h (Numeral.renderOnto_ne_nil 10 k [])
          | cons c cs' =>
            rw [h] at digit minus
            exact absurd (List.cons.inj minus).1 (Numeral.ne_minus_of_value? digit)
        · rfl
      rw [Number.print, printInt, unsigned, read, numberValue?, absorb_eq fits, value]
      rfl
    | negSucc k =>
      obtain ⟨ds, value, read⟩ := readMagnitude_render ends true (k + 1)
      have least : k + 1 ≤ 0x8000000000000000 := by omega
      have fits : valueFrom 0 ds < 0x10000000000000000 := by omega
      have signed : ¬ (k + 1 = 0 ∨ 0x8000000000000000 < k + 1) := by omega
      rw [Number.print, printInt, List.cons_append, readNumber, read, numberValue?, absorb_eq fits, value]
      simp only [ne_eq, not_true_eq_false, if_false, Bool.not_true, Bool.false_eq_true, if_neg signed]
      rfl

/-! ### The other way round -/

theorem absorb_lt {ds : List Nat} : ∀ {n : Nat}, n < 0x10000000000000000 → (absorb n ds).1 < 0x10000000000000000 := by
  induction ds with
  | nil => exact id
  | cons d ds ih =>
    intro n fits
    rw [absorb]
    split_ifs with more
    · exact ih more
    · exact fits

theorem sized_of_magnitude? {negative : Bool} {significand : Nat} {exp : Int} {n : Number}
    (h : (magnitude? significand exp).map (signed negative) = some n) : n.Sized := by
  obtain ⟨x, -, rfl⟩ := Option.map_eq_some_iff.mp h
  trivial

theorem sized_of_numberValue? {negative : Bool} {whole : List Nat} {fraction : Option (List Nat)}
    {exp : Option (Bool × List Nat)} {n : Number} (h : numberValue? negative whole fraction exp = some n) : n.Sized := by
  have fits : (absorb 0 whole).1 < 0x10000000000000000 := absorb_lt (by decide)
  unfold numberValue? at h
  simp only at h
  split at h
  · split_ifs at h with left unsigned beyond
    · exact sized_of_magnitude? h
    · cases h
      exact ⟨by omega, by omega⟩
    · cases h
      trivial
    · cases h
      exact ⟨by omega, by omega⟩
  · split at h
    · exact sized_of_magnitude? h
    · split_ifs at h
      · cases h
        trivial
      · exact sized_of_magnitude? h
      · exact sized_of_magnitude? h

/-- **An integer that is read has 64 bits.** -/
theorem sized_of_readNumber {cs rest : List Char} {n : Number} (h : readNumber cs = some (some n, rest)) : n.Sized := by
  have magnitude {negative : Bool} {cs : List Char} (h : readMagnitude negative cs = some (some n, rest)) : n.Sized := by
    unfold readMagnitude at h
    split at h
    · cases h
    · cases h
    · split at h
      · cases h
      · split at h
        · cases h
        · simp only [Option.some.injEq, Prod.mk.injEq] at h
          exact sized_of_numberValue? h.1
  unfold readNumber at h
  split at h
  · exact magnitude h
  · exact magnitude h

end Literal
end Json
end OracleRelay
