/-
# Hexadecimal text read back

Octets are written with two of the sixteen digits each (`encode_eq_figures`). A text is read as some octets exactly if
it is what is written for them, up to the case of letters (`decode_eq_ok_iff`), which is to say that it spells them
digit by digit (`decode_eq_ok_iff_spells`). So a topic names a job exactly if it spells the word of the job, behind the
mark or without it (`JobId.matchesTopic_iff`).

Key definitions: `Hex.figures`, `Hex.Figure`, `Hex.Spells`.
Key theorems: `Hex.digit?_eq_some_iff`, `Hex.encode_eq_figures`, `Hex.decodePairs_eq_ok_iff`, `Hex.decode_eq_ok_iff`,
`Hex.spells_iff`, `Hex.decode_eq_ok_iff_spells`, `Hex.spells_stripMark_iff`, `JobId.matchesTopic_iff`.
-/
import OracleRelay.Proofs.Text.Numeral
import OracleRelay.Proofs.Text.Octets
import OracleRelay.Proofs.Text.Utf8
import OracleRelay.Request.JobId

namespace OracleRelay
namespace Hex

/-! ### Digits -/

/-- Only capitals have another lower case: they stand 32 places before it. -/
theorem toNat_toLower (c : Char) :
    c.toLower.toNat = if 65 ≤ c.toNat ∧ c.toNat ≤ 90 then c.toNat + 32 else c.toNat := by
  have hle : ∀ a b : UInt32, a ≤ b ↔ a.toNat ≤ b.toNat := fun _ _ => UInt32.le_iff_toNat_le
  have hA : ('A'.val).toNat = 65 := rfl
  have hZ : ('Z'.val).toNat = 90 := rfl
  have hval : c.val.toNat = c.toNat := rfl
  unfold Char.toLower
  by_cases h : 65 ≤ c.toNat ∧ c.toNat ≤ 90
  · have hcap : c.val ≥ 'A'.val ∧ c.val ≤ 'Z'.val := by
      rw [ge_iff_le, hle, hle, hA, hZ, hval]
      exact h
    rw [if_pos h, dif_pos hcap]
    change (c.val + ('a'.val - 'A'.val)).toNat = c.toNat + 32
    have hshift : ('a'.val - 'A'.val).toNat = 32 := rfl
    rw [UInt32.toNat_add, hshift, hval]
    omega
  · have hcap : ¬ (c.val ≥ 'A'.val ∧ c.val ≤ 'Z'.val) := by
      rw [ge_iff_le, hle, hle, hA, hZ, hval]
      exact h
    rw [if_neg h, dif_neg hcap]

/-- A character is a digit exactly if its lower case is what is written for the digit. -/
theorem digit?_eq_some_iff {c : Char} {d : Nat} :
    Numeral.digit? 16 c = some d ↔ d < 16 ∧ c.toLower = Numeral.digitChar d := by
  have hlarge : Numeral.largestBase = 36 := rfl
  have hchar : d < 16 → (c.toLower = Numeral.digitChar d ↔
      (if 65 ≤ c.toNat ∧ c.toNat ≤ 90 then c.toNat + 32 else c.toNat) = if d < 10 then 48 + d else 87 + d) := by
    intro hd
    rw [← Char.toNat_inj, toNat_toLower, Numeral.toNat_digitChar d (by omega)]
  unfold Numeral.digit?
  simp only [Option.ite_none_right_eq_some, Option.some.injEq]
  constructor
  · rintro ⟨hlt, heq⟩
    have hd : d < 16 := by omega
    refine ⟨hd, (hchar hd).mpr ?_⟩
    split_ifs at hlt heq ⊢ <;> omega
  · rintro ⟨hd, heq⟩
    have hcases := (hchar hd).mp heq
    split_ifs at hcases ⊢ <;> omega

/-- The sixteen digits as they are written. -/
def figures : List Char := "0123456789abcdef".toList

theorem digitChar_eq_figure : ∀ d < 16, Numeral.digitChar d = figures.getD d ' ' := by
  decide

/-- An octet is written with the digit of its upper half and that of its lower half. -/
theorem encode_eq_figures (bs : List UInt8) :
    encode bs = bs.flatMap fun b => [figures.getD (b.toNat / 16) ' ', figures.getD (b.toNat % 16) ' '] := by
  refine congrArg (List.flatten <| List.map · bs) (funext fun b => ?_)
  have octet : b.toNat < 256 := b.toNat_lt
  rw [digits, digitChar_eq_figure _ (by omega), digitChar_eq_figure _ (by omega)]

/-- Nothing is written only for no octets. -/
theorem text_eq_empty_iff (octets : List UInt8) : text octets = "" ↔ octets = [] := by
  cases octets <;> simp [text, encode, digits]

/-! ### Octets of text -/

/-- An octet of a text as a character, in lower case. -/
def lowerOf (b : UInt8) : Char := (Char.ofNat b.toNat).toLower

theorem nibble_eq_ok_iff {b : UInt8} {place d : Nat} :
    nibble b place = .ok d ↔ d < 16 ∧ lowerOf b = Numeral.digitChar d := by
  rw [lowerOf, ← digit?_eq_some_iff]
  unfold nibble
  cases Numeral.digit? 16 (Char.ofNat b.toNat) with
  | none => simp
  | some d' => simp

theorem encode_cons (b : UInt8) (bs : List UInt8) :
    encode (b :: bs) = Numeral.digitChar (b.toNat / 16) :: Numeral.digitChar (b.toNat % 16) :: encode bs := rfl

theorem length_encode (bs : List UInt8) : (encode bs).length = 2 * bs.length := by
  induction bs with
  | nil => rfl
  | cons b bs ih =>
    rw [encode_cons, List.length_cons, List.length_cons, List.length_cons, ih]
    omega

/-- Two characters are the digits of an octet exactly if they are those of its halves. -/
theorem digits_eq_iff {c c' : Char} {b : UInt8} :
    (c = Numeral.digitChar (b.toNat / 16) ∧ c' = Numeral.digitChar (b.toNat % 16)) ↔
      ∃ x y, x < 16 ∧ y < 16 ∧ c = Numeral.digitChar x ∧ c' = Numeral.digitChar y ∧ UInt8.ofNat (x * 16 + y) = b := by
  have hb : b.toNat < 256 := b.toNat_lt
  constructor
  · rintro ⟨rfl, rfl⟩
    refine ⟨b.toNat / 16, b.toNat % 16, by omega, by omega, rfl, rfl, ?_⟩
    have hsum : b.toNat / 16 * 16 + b.toNat % 16 = b.toNat := by omega
    rw [hsum, UInt8.ofNat_toNat]
  · rintro ⟨x, y, hx, hy, rfl, rfl, rfl⟩
    have hnat : (UInt8.ofNat (x * 16 + y)).toNat = x * 16 + y := Octets.toNat_ofNat (by omega)
    have hhigh : (x * 16 + y) / 16 = x := by omega
    have hlow : (x * 16 + y) % 16 = y := by omega
    rw [hnat, hhigh, hlow]
    exact ⟨rfl, rfl⟩

/-- Two octets of a text and what is read after them. -/
theorem decodePairs_cons_cons {place : Nat} {a b : UInt8} {rest bs : List UInt8} :
    decodePairs place (a :: b :: rest) = .ok bs ↔ ∃ x y bs', nibble a place = .ok x ∧ nibble b (place + 1) = .ok y ∧
      decodePairs (place + 2) rest = .ok bs' ∧ UInt8.ofNat (x * 16 + y) :: bs' = bs := by
  rw [decodePairs]
  cases nibble a place with
  | error e => simp
  | ok x =>
    cases nibble b (place + 1) with
    | error e => simp
    | ok y => cases decodePairs (place + 2) rest <;> simp

/-- **Pairs of digits are read as the octets for which they are written.** -/
theorem decodePairs_eq_ok_iff : ∀ {place : Nat} {text bs : List UInt8},
    decodePairs place text = .ok bs ↔ text.map lowerOf = encode bs
  | _, [], [] => by simp [decodePairs, encode]
  | _, [], b :: bs => by simp [decodePairs, encode_cons]
  | _, [a], [] => by simp [decodePairs, encode]
  | _, [a], b :: bs => by simp [decodePairs, encode_cons]
  | place, a :: b :: rest, [] => by simp [decodePairs_cons_cons, encode]
  | place, a :: b :: rest, o :: bs => by
    have hrest : decodePairs (place + 2) rest = .ok bs ↔ rest.map lowerOf = encode bs := decodePairs_eq_ok_iff
    rw [decodePairs_cons_cons, encode_cons, List.map_cons, List.map_cons, List.cons.injEq, List.cons.injEq,
      ← and_assoc, digits_eq_iff, ← hrest]
    simp only [nibble_eq_ok_iff]
    constructor
    · rintro ⟨x, y, bs', ⟨hx, ha⟩, ⟨hy, hb⟩, hread, hcons⟩
      obtain ⟨rfl, rfl⟩ := List.cons.inj hcons
      exact ⟨⟨x, y, hx, hy, ha, hb, rfl⟩, hread⟩
    · rintro ⟨⟨x, y, hx, hy, ha, hb, rfl⟩, hread⟩
      exact ⟨x, y, bs, ⟨hx, ha⟩, ⟨hy, hb⟩, hread, rfl⟩

/-! ### Text -/

/-- What is written for octets is in the first half of a code page. -/
theorem toNat_lt_of_mem_encode {bs : List UInt8} {c : Char} (h : c ∈ encode bs) : c.toNat < 128 := by
  obtain ⟨b, -, hc⟩ := List.mem_flatMap.mp h
  have hb : b.toNat < 256 := b.toNat_lt
  have hlarge : Numeral.largestBase = 36 := rfl
  have hdigit : ∀ d < 16, (Numeral.digitChar d).toNat < 128 := by
    intro d hd
    rw [Numeral.toNat_digitChar d (by omega)]
    split <;> omega
  rcases List.mem_cons.mp hc with rfl | hc
  · exact hdigit _ (by omega)
  · rw [List.mem_singleton.mp hc]
    exact hdigit _ (by omega)

/-- The octet of a plain character is read as this character. -/
theorem map_lowerOf_encodeChar {c : Char} (h : c.toNat < 128) : (Utf8.encodeChar c).map lowerOf = [c.toLower] := by
  have hone : Utf8.encodeChar c = [UInt8.ofNat c.toNat] := if_pos h
  rw [hone, List.map_singleton, lowerOf, Octets.toNat_ofNat (by omega), Char.ofNat_toNat]

/-- The first octet of any other character is none of a plain one. -/
theorem exists_lowerOf_encodeChar {c : Char} (h : ¬ c.toNat < 128) :
    ∃ d ds, (Utf8.encodeChar c).map lowerOf = d :: ds ∧ ¬ d.toNat < 128 := by
  have hhigh : ∀ n, 128 ≤ n → n < 256 → ¬ (lowerOf (UInt8.ofNat n)).toNat < 128 := by
    intro n hge hlt
    have hvalid : n.isValidChar := .inl (by omega)
    have hchar : (Char.ofNat n).toNat = n := by
      rw [Char.ofNat, dif_pos hvalid]
      rfl
    rw [lowerOf, Octets.toNat_ofNat hlt, toNat_toLower, hchar]
    split <;> omega
  have hvalid := Utf8.toNat_valid c
  unfold Utf8.encodeChar
  simp only
  rw [if_neg h]
  split
  · exact ⟨_, _, rfl, hhigh _ (by omega) (by omega)⟩
  · split
    · exact ⟨_, _, rfl, hhigh _ (by omega) (by omega)⟩
    · exact ⟨_, _, rfl, hhigh _ (by omega) (by omega)⟩

/-- Octet by octet and character by character, a text reads as the same plain characters. -/
theorem map_lowerOf_eq_iff : ∀ {cs ds : List Char}, (∀ d ∈ ds, d.toNat < 128) →
    ((Utf8.encode cs).map lowerOf = ds ↔ cs.map Char.toLower = ds)
  | [], _, _ => Iff.rfl
  | c :: cs, ds, plain => by
    have hcons : Utf8.encode (c :: cs) = Utf8.encodeChar c ++ Utf8.encode cs := rfl
    rw [hcons, List.map_append, List.map_cons]
    by_cases hc : c.toNat < 128
    · rw [map_lowerOf_encodeChar hc, List.singleton_append]
      cases ds with
      | nil => simp
      | cons d ds =>
        rw [List.cons.injEq, List.cons.injEq, map_lowerOf_eq_iff fun d' hd' => plain d' (List.mem_cons_of_mem _ hd')]
    · obtain ⟨e, es, hfirst, he⟩ := exists_lowerOf_encodeChar hc
      rw [hfirst, List.cons_append]
      refine iff_of_false (fun h => ?_) fun h => ?_
      · exact he (plain e (h ▸ List.mem_cons_self))
      · have hlower : c.toLower.toNat < 128 := plain _ (h ▸ List.mem_cons_self)
        rw [toNat_toLower] at hlower
        split at hlower <;> omega

/-- **A text is read as some octets exactly if it is what is written for them**, up to the case of letters. -/
theorem decode_eq_ok_iff {s : String} {bs : List UInt8} :
    decode s = .ok bs ↔ s.toList.map Char.toLower = encode bs := by
  have hplain : ∀ c ∈ encode bs, c.toNat < 128 := fun _ hc => toNat_lt_of_mem_encode hc
  have hpairs : decodePairs 0 (Utf8.ofString s) = .ok bs ↔ s.toList.map Char.toLower = encode bs := by
    rw [decodePairs_eq_ok_iff, ← map_lowerOf_eq_iff hplain]
    rfl
  unfold decode
  simp only
  by_cases hodd : (Utf8.ofString s).length % 2 = 1
  · rw [if_pos hodd, ← hpairs, decodePairs_eq_ok_iff]
    refine iff_of_false (by simp) fun h => ?_
    have hlength := congrArg List.length h
    rw [List.length_map, length_encode] at hlength
    omega
  · rw [if_neg hodd, hpairs]

/-! ### Spelling -/

/-- The sixteen digits in capitals. -/
def capitals : List Char := "0123456789ABCDEF".toList

/-- The character is the digit with this value, in either case. -/
def Figure (c : Char) (d : Nat) : Prop := figures[d]? = some c ∨ capitals[d]? = some c

/-- The text has two digits for each octet, of whatever case each of them is. -/
inductive Spells : List Char → List UInt8 → Prop where
  | nil : Spells [] []
  | cons {c c' : Char} {cs : List Char} {b : UInt8} {bs : List UInt8} : Figure c (b.toNat / 16) →
    Figure c' (b.toNat % 16) → Spells cs bs → Spells (c :: c' :: cs) (b :: bs)

theorem figures_getElem? : ∀ d < 16, figures[d]? = some (Numeral.digitChar d) := by decide

theorem capitals_getElem? :
    ∀ d < 16, capitals[d]? = some (if d < 10 then Numeral.digitChar d else Char.ofNat (55 + d)) := by
  decide

theorem toLower_digitChar : ∀ d < 16, (Numeral.digitChar d).toLower = Numeral.digitChar d := by decide

theorem toLower_capital : ∀ d < 16, 10 ≤ d → (Char.ofNat (55 + d)).toLower = Numeral.digitChar d := by decide

/-- In lower case a digit of either case is what is written. -/
theorem figure_iff {c : Char} {d : Nat} (hd : d < 16) : Figure c d ↔ c.toLower = Numeral.digitChar d := by
  rw [Figure, figures_getElem? d hd, capitals_getElem? d hd, Option.some.injEq, Option.some.injEq]
  constructor
  · rintro (rfl | rfl)
    · exact toLower_digitChar d hd
    · split
      · exact toLower_digitChar d hd
      · exact toLower_capital d hd (by omega)
  · intro lower
    have code := congrArg Char.toNat lower
    rw [toNat_toLower, Numeral.toNat_digitChar d (by rw [Numeral.largestBase]; omega)] at code
    have self : Char.ofNat c.toNat = c := Char.ofNat_toNat c
    by_cases capital : 65 ≤ c.toNat ∧ c.toNat ≤ 90
    · -- Only letters have capitals.
      rw [if_pos capital] at code
      have letter : ¬ d < 10 := by
        intro figure
        rw [if_pos figure] at code
        omega
      rw [if_neg letter] at code ⊢
      right
      rw [← self]
      exact congrArg Char.ofNat (by omega)
    · rw [if_neg capital] at code
      left
      rw [← self, code, Numeral.digitChar]
      split <;> rfl

/-- **A text spells octets exactly if it is what is written for them**, up to the case of letters. -/
theorem spells_iff : ∀ {bs : List UInt8} {cs : List Char}, Spells cs bs ↔ cs.map Char.toLower = encode bs
  | [], cs => by
    constructor
    · rintro ⟨⟩
      rfl
    · intro h
      rw [List.map_eq_nil_iff.mp h]
      exact .nil
  | b :: bs, cs => by
    have octet : b.toNat < 256 := b.toNat_lt
    have high : b.toNat / 16 < 16 := by omega
    have low : b.toNat % 16 < 16 := by omega
    constructor
    · rintro ⟨⟩
      rename_i c c' cs first second rest
      rw [List.map_cons, List.map_cons, encode_cons, (figure_iff high).mp first, (figure_iff low).mp second,
        spells_iff.mp rest]
    · intro h
      rw [encode_cons] at h
      obtain ⟨c, cs, rfl, first, h⟩ := List.map_eq_cons_iff.mp h
      obtain ⟨c', cs, rfl, second, h⟩ := List.map_eq_cons_iff.mp h
      exact .cons ((figure_iff high).mpr first) ((figure_iff low).mpr second) (spells_iff.mpr h)

/-- **A text is read as the octets that it spells.** -/
theorem decode_eq_ok_iff_spells {s : String} {bs : List UInt8} : decode s = .ok bs ↔ Spells s.toList bs := by
  rw [decode_eq_ok_iff, spells_iff]

theorem Spells.length {cs : List Char} {bs : List UInt8} (h : Spells cs bs) : cs.length = 2 * bs.length := by
  rw [← length_encode, ← spells_iff.mp h, List.length_map]

/-- What is written for octets spells them. -/
theorem spells_encode (bs : List UInt8) : Spells (encode bs) bs := by
  apply spells_iff.mpr
  have lower : ∀ c ∈ encode bs, c.toLower = c := by
    intro c hc
    obtain ⟨b, -, hc⟩ := List.mem_flatMap.mp hc
    have octet : b.toNat < 256 := b.toNat_lt
    rcases List.mem_cons.mp hc with rfl | hc
    · exact toLower_digitChar _ (by omega)
    · rw [List.mem_singleton.mp hc]
      exact toLower_digitChar _ (by omega)
  rw [List.map_congr_left lower, List.map_id']

/-! ### The mark -/

theorem stripMark_of_mark {s : String} {cs : List Char} (h : s.toList = '0' :: 'x' :: cs) :
    stripMark s = String.ofList cs := by
  simp only [stripMark, h]

theorem stripMark_of_no_mark {s : String} (h : ∀ cs, s.toList ≠ '0' :: 'x' :: cs) : stripMark s = s := by
  unfold stripMark
  split
  · rename_i cs marked
    exact absurd marked (h cs)
  · rfl

/-- Digits do not begin with the mark. -/
theorem Spells.no_mark {cs : List Char} {bs : List UInt8} (h : Spells ('0' :: 'x' :: cs) bs) : False := by
  cases h with
  | @cons _ _ _ b _ _ second _ =>
    have low : b.toNat % 16 < 16 := Nat.mod_lt _ (by decide)
    have other : ∀ d < 16, 'x'.toLower ≠ Numeral.digitChar d := by decide
    exact other _ low ((figure_iff low).mp second)

/-- **Without the mark a text spells octets exactly if it does so behind one mark or as it is.** -/
theorem spells_stripMark_iff {s : String} {bs : List UInt8} : Spells (stripMark s).toList bs ↔
    ∃ digits, (s.toList = digits ∨ s.toList = '0' :: 'x' :: digits) ∧ Spells digits bs := by
  by_cases marked : ∃ cs, s.toList = '0' :: 'x' :: cs
  · obtain ⟨cs, marked⟩ := marked
    rw [stripMark_of_mark marked, String.toList_ofList]
    constructor
    · intro h
      exact ⟨cs, .inr marked, h⟩
    · rintro ⟨digits, bare | again, h⟩
      · rw [← bare, marked] at h
        exact h.no_mark.elim
      · rw [marked] at again
        cases again
        exact h
  · have bare : ∀ cs, s.toList ≠ '0' :: 'x' :: cs := fun cs h => marked ⟨cs, h⟩
    rw [stripMark_of_no_mark bare]
    constructor
    · intro h
      exact ⟨s.toList, .inl rfl, h⟩
    · rintro ⟨digits, same | mark, h⟩
      · rwa [same]
      · exact absurd mark (bare digits)

end Hex

/-- **A topic names a job exactly if it spells the word of the job**, behind the mark or without it. -/
theorem JobId.matchesTopic_iff {topic jobId : String} :
    JobId.matchesTopic topic jobId = true ↔ Hex.decode (Hex.stripMark topic) = .ok (JobId.word jobId) := by
  rw [Hex.decode_eq_ok_iff, JobId.matchesTopic, decide_eq_true_iff]

end OracleRelay
