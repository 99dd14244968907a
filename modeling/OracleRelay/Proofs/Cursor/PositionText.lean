/-
# The texts of positions

A position is written in hexadecimal behind its mark, and every number below the bound is read back from what is written
for it. Of the texts in lower case that are read as a number, the one that is written is the shortest
(`Position.text_exact`). What is read is a figure or more of either case behind a mark of either case, zeros in front
included; but a plus sign between mark and figures is passed over too (`Position.plus_passed_over`).

Key definitions: `Position.Spelt`, `Position.Marked`, `Position.Plussed`, `Position.Lowercase`.
Key theorems: `Position.spelt_iff`, `Position.parse?_eq_some_iff`, `Position.eq_encode_or_longer`,
`Position.text_exact`.
-/
import OracleRelay.Proofs.Cursor.Position
import OracleRelay.Proofs.Text.Hex

namespace OracleRelay

theorem Hex.digit?_eq_some_iff_figure {c : Char} {d : Nat} : Numeral.digit? 16 c = some d ↔ Hex.Figure c d := by
  rw [digit?_eq_some_iff]
  constructor
  · rintro ⟨small, lower⟩
    exact (figure_iff small).mpr lower
  · intro figure
    have small : d < 16 := by
      rcases figure with h | h
      · exact (List.getElem?_eq_some_iff.mp h).1
      · exact (List.getElem?_eq_some_iff.mp h).1
    exact ⟨small, (figure_iff small).mp figure⟩

namespace Position

/-! ### What a text spells -/

/-- The characters are figures of either case, one or more, and spell the number, the most significant first. -/
inductive Spelt : List Char → Nat → Prop where
  | one {c : Char} {d : Nat} : Hex.Figure c d → Spelt [c] d
  | concat {cs : List Char} {n : Nat} {c : Char} {d : Nat} : Spelt cs n → Hex.Figure c d →
    Spelt (cs ++ [c]) (n * 16 + d)

/-- The text is the mark of a hexadecimal number and then figures that spell the number, and nothing else. -/
def Marked (s : String) (n : Nat) : Prop :=
  ∃ x figures, s.toList = '0' :: x :: figures ∧ (x = 'x' ∨ x = 'X') ∧ Spelt figures n

/-- The same with a plus sign between the mark and the figures. -/
def Plussed (s : String) (n : Nat) : Prop :=
  ∃ x figures, s.toList = '0' :: x :: '+' :: figures ∧ (x = 'x' ∨ x = 'X') ∧ Spelt figures n

/-- No character of the text is a capital. -/
def Lowercase (s : String) : Prop := ∀ c ∈ s.toList, c.toLower = c

theorem Spelt.value {cs : List Char} {n : Nat} (h : Spelt cs n) : Numeral.value? 16 cs = some n := by
  induction h with
  | one figure =>
    have digit := Hex.digit?_eq_some_iff_figure.mpr figure
    simp [Numeral.value?, Numeral.valueFrom?, digit]
  | @concat cs n c d front figure ih =>
    have nonempty : cs ≠ [] := by
      rintro rfl
      cases ih
    have digit := Hex.digit?_eq_some_iff_figure.mpr figure
    rw [Numeral.value?_eq_valueFrom? nonempty] at ih
    rw [Numeral.value?_eq_valueFrom? (by simp), Numeral.valueFrom?_concat, ih, digit]
    rfl

/-- Characters are read as the number that they spell. -/
theorem spelt_iff {cs : List Char} : ∀ {n : Nat}, Spelt cs n ↔ Numeral.value? 16 cs = some n := by
  induction cs using List.reverseRecOn with
  | nil =>
    intro n
    constructor
    · exact Spelt.value
    · intro h
      exact absurd h nofun
  | append_singleton cs c ih =>
    intro n
    refine ⟨Spelt.value, fun h => ?_⟩
    rw [Numeral.value?_eq_valueFrom? (by simp), Numeral.valueFrom?_concat] at h
    obtain ⟨m, front, h⟩ := Option.bind_eq_some_iff.mp h
    obtain ⟨d, digit, rfl⟩ := Option.map_eq_some_iff.mp h
    have figure : Hex.Figure c d := Hex.digit?_eq_some_iff_figure.mp digit
    by_cases empty : cs = []
    · subst empty
      have zero : m = 0 := (Option.some.inj front).symm
      rw [zero, Nat.zero_mul, Nat.zero_add]
      exact .one figure
    · rw [← Numeral.value?_eq_valueFrom? empty] at front
      exact .concat (ih.mpr front) figure

theorem marked_iff_quantity {s : String} {n : Nat} : Marked s n ↔ Quantity s n := by
  simp only [Marked, Quantity, spelt_iff]

/-- No figure is a plus sign. -/
theorem not_spelt_plus {cs : List Char} {n : Nat} : ¬ Spelt ('+' :: cs) n := fun h =>
  Numeral.ne_plus_of_value? h.value rfl

theorem unsigned?_eq_some_iff {cs : List Char} {n : Nat} : Numeral.unsigned? 16 bound cs = some n ↔
    n < bound ∧ (Spelt cs n ∨ ∃ figures, cs = '+' :: figures ∧ Spelt figures n) := by
  have filtered (figures : List Char) :
      (Numeral.value? 16 figures).filter (· < bound) = some n ↔ n < bound ∧ Spelt figures n := by
    rw [Option.filter_eq_some_iff, spelt_iff, decide_eq_true_eq, and_comm]
  unfold Numeral.unsigned?
  split
  case h_1 figures =>
    rw [filtered]
    constructor
    · rintro ⟨small, spelt⟩
      exact ⟨small, .inr ⟨figures, rfl, spelt⟩⟩
    · rintro ⟨small, spelt | ⟨_, same, spelt⟩⟩
      · exact absurd spelt not_spelt_plus
      · cases same
        exact ⟨small, spelt⟩
  case h_2 other =>
    rw [filtered]
    constructor
    · rintro ⟨small, spelt⟩
      exact ⟨small, .inl spelt⟩
    · rintro ⟨small, spelt | ⟨figures, same, _⟩⟩
      · exact ⟨small, spelt⟩
      · exact absurd same (other figures)

/-- **What is read, and as what.** -/
theorem parse?_eq_some_iff {s : String} {n : Nat} :
    parse? s = some n ↔ n < bound ∧ (Marked s n ∨ Plussed s n) := by
  have behind (x : Char) (cs : List Char) (hs : s.toList = '0' :: x :: cs) (hx : x = 'x' ∨ x = 'X') :
      (Marked s n ∨ Plussed s n) ↔ (Spelt cs n ∨ ∃ figures, cs = '+' :: figures ∧ Spelt figures n) := by
    constructor
    · rintro (⟨_, _, hs', -, spelt⟩ | ⟨_, figures, hs', -, spelt⟩)
      · cases hs.symm.trans hs'
        exact .inl spelt
      · cases hs.symm.trans hs'
        exact .inr ⟨figures, rfl, spelt⟩
    · rintro (spelt | ⟨figures, rfl, spelt⟩)
      · exact .inl ⟨x, cs, hs, hx, spelt⟩
      · exact .inr ⟨x, figures, hs, hx, spelt⟩
  unfold parse?
  split
  case h_1 cs hs => rw [unsigned?_eq_some_iff, behind 'x' cs hs (.inl rfl)]
  case h_2 cs hs => rw [unsigned?_eq_some_iff, behind 'X' cs hs (.inr rfl)]
  case h_3 small capital =>
    refine iff_of_false nofun ?_
    rintro ⟨-, ⟨x, figures, hs, rfl | rfl, -⟩ | ⟨x, figures, hs, rfl | rfl, -⟩⟩
    · exact small _ hs
    · exact capital _ hs
    · exact small _ hs
    · exact capital _ hs

theorem not_marked_of_plussed {s : String} {n m : Nat} (plussed : Plussed s n) : ¬ Marked s m := by
  rintro ⟨_, _, hs, -, spelt⟩
  obtain ⟨_, figures, hs', -⟩ := plussed
  cases hs.symm.trans hs'
  exact not_spelt_plus spelt

/-! ### The shortest text -/

theorem marked_encode (n : Nat) : Marked (encode n) n := marked_iff_quantity.mpr (quantity_encode n)

theorem toList_encode (n : Nat) : (encode n).toList = '0' :: 'x' :: Numeral.render 16 n := String.toList_ofList

/-- A position is written in lower case. -/
theorem lowercase_encode (n : Nat) : Lowercase (encode n) := by
  have lower (k : Nat) : ∀ c ∈ Numeral.render 16 k, c.toLower = c := by
    induction k using Numeral.digitsInduction (by decide : 2 ≤ 16) with
    | digit d small =>
      rw [Numeral.render_of_lt small]
      intro c hc
      rw [List.mem_singleton.mp hc]
      exact Hex.toLower_digitChar d small
    | concat k d pos small ih =>
      rw [Numeral.render_concat (by decide) pos small]
      intro c hc
      rcases List.mem_append.mp hc with front | last
      · exact ih c front
      · rw [List.mem_singleton.mp last]
        exact Hex.toLower_digitChar d small
  intro c hc
  rw [toList_encode] at hc
  rcases List.mem_cons.mp hc with rfl | hc
  · rfl
  rcases List.mem_cons.mp hc with rfl | hc
  · rfl
  exact lower n c hc

/-- Figures in lower case are the numeral of the number that they spell, or more than it has. -/
theorem Spelt.eq_render_or_longer {cs : List Char} {n : Nat} (h : Spelt cs n) (lower : ∀ c ∈ cs, c.toLower = c) :
    cs = Numeral.render 16 n ∨ (Numeral.render 16 n).length < cs.length := by
  refine Numeral.eq_render_or_longer (by decide) (spelt_iff.mp h) fun c hc d digit => ?_
  rw [← lower c hc]
  exact (Hex.digit?_eq_some_iff.mp digit).2

/-- A text in lower case that is read as a number is the one that is written for it, or longer. -/
theorem eq_encode_or_longer {t : String} {n : Nat} (read : parse? t = some n) (lower : Lowercase t) :
    t = encode n ∨ (encode n).length < t.length := by
  have length : (encode n).length = (Numeral.render 16 n).length + 2 := by
    rw [← String.length_toList, toList_encode]
    rfl
  obtain ⟨-, ⟨x, figures, ht, hx, spelt⟩ | ⟨x, figures, ht, hx, spelt⟩⟩ := parse?_eq_some_iff.mp read
  · have small : x = 'x' := hx.resolve_right fun capital => by
      have : x.toLower = x := lower x (by simp [ht])
      subst capital
      exact absurd this (by decide)
    rcases spelt.eq_render_or_longer fun c hc => lower c (by simp [ht, hc]) with same | longer
    · left
      apply String.toList_inj.mp
      rw [ht, toList_encode, small, same]
    · right
      rw [length, ← String.length_toList, ht]
      simpa using longer
  · right
    have : (Numeral.render 16 n).length ≤ figures.length := by
      rcases spelt.eq_render_or_longer fun c hc => lower c (by simp [ht, hc]) with same | longer
      · rw [same]
      · exact longer.le
    rw [length, ← String.length_toList, ht]
    simp only [List.length_cons]
    omega

/-- **The texts of positions.** A text is read as a number exactly if the number is below the bound and the text is the
number's figures behind the mark, or these with a plus sign in front; so nothing but marked figures is read, unless the
text has a plus sign there. Every number below the bound is read back from its text, and that is the shortest of the
texts in lower case that are read as it. -/
theorem text_exact (s : String) :
    (∀ n, parse? s = some n ↔ n < bound ∧ (Marked s n ∨ Plussed s n)) ∧
    ((∀ n, parse? s = some n ↔ n < bound ∧ Marked s n) ↔ ∀ n < bound, ¬ Plussed s n) ∧
    ∀ n < bound, parse? (encode n) = some n ∧ Marked (encode n) n ∧ Lowercase (encode n) ∧
      (parse? s = some n → Lowercase s → s = encode n ∨ (encode n).length < s.length) := by
  refine ⟨fun n => parse?_eq_some_iff, ⟨fun exactly n small plussed => ?_, fun none n => ?_⟩, fun n small => ?_⟩
  · have read : parse? s = some n := parse?_eq_some_iff.mpr ⟨small, .inr plussed⟩
    exact not_marked_of_plussed plussed ((exactly n).mp read).2
  · rw [parse?_eq_some_iff]
    constructor
    · rintro ⟨small, marked | plussed⟩
      · exact ⟨small, marked⟩
      · exact absurd plussed (none n small)
    · exact fun ⟨small, marked⟩ => ⟨small, .inl marked⟩
  · exact ⟨parse?_encode small, marked_encode n, lowercase_encode n, eq_encode_or_longer⟩

/-- A plus sign behind the mark is passed over, although it is no figure. -/
theorem plus_passed_over : parse? "0x+10" = some 16 ∧ ∀ n, ¬ Marked "0x+10" n := by
  have figures : Spelt ['1', '0'] 16 := spelt_iff.mpr (by decide)
  have plussed : Plussed "0x+10" 16 := ⟨'x', ['1', '0'], by decide, .inl rfl, figures⟩
  exact ⟨parse?_eq_some_iff.mpr ⟨by decide, .inr plussed⟩, fun n => not_marked_of_plussed plussed⟩

end Position
end OracleRelay
