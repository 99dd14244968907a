/-
# Numerals read back

The numeral of a number reads as that number, in every base whose digits have characters of their own
(`value?_render`), also as a number below a bound (`unsigned?_render`). An integer is read back from its numeral as
long as it fits the bits (`signed?_decimalInt`), and there is one numeral for each (`canonical_iff`). Numerals
are also taken apart from their last digit on (`render_concat`, `digitsInduction`), so that the digits of a number are
those of its upper part and of its lower part (`render_append`).

Key definitions: `Numeral.lowest`, `Numeral.Canonical`.
Key theorems: `Numeral.digit?_digitChar`, `Numeral.value?_render`, `Numeral.render_append`,
`Numeral.eq_render_of_value?`, `Numeral.eq_render_or_longer`, `Numeral.unsigned?_render`, `Numeral.signed?_decimalInt`,
`Numeral.canonical_iff`.
-/
import Mathlib.Algebra.Order.Ring.Nat
import Mathlib.Data.List.Basic
import Mathlib.Data.List.Induction
import Mathlib.Data.Nat.Basic
import OracleRelay.Text.Numeral

namespace OracleRelay
namespace Numeral

/-- The largest base with a character for each digit: ten figures and the letters. -/
def largestBase : Nat := 36

theorem toNat_digitChar : ∀ d < largestBase, (digitChar d).toNat = if d < 10 then 48 + d else 87 + d := by
  decide

theorem digit?_digitChar {base d : Nat} (hbase : base ≤ largestBase) (hd : d < base) :
    digit? base (digitChar d) = some d := by
  have hd' : d < largestBase := lt_of_lt_of_le hd hbase
  have hlarge : largestBase = 36 := rfl
  simp only [digit?, toNat_digitChar d hd']
  by_cases h10 : d < 10
  · have hfigure : 48 ≤ 48 + d ∧ 48 + d ≤ 57 := by omega
    simp [h10, hfigure, hd]
  · have hfigure : ¬ (48 ≤ 87 + d ∧ 87 + d ≤ 57) := by omega
    have hletter : 97 ≤ 87 + d ∧ 87 + d ≤ 122 := by omega
    simp [h10, hfigure, hletter, hd]

/-- A plus sign is no digit. -/
theorem digit?_plus {base : Nat} : digit? base '+' = none := by
  simp [digit?]

/-- What is read from the digits of `n` is what is read on from `n`. -/
theorem valueFrom?_renderOnto {base : Nat} (h2 : 2 ≤ base) (hbase : base ≤ largestBase) (n : Nat)
    (rest : List Char) : valueFrom? base 0 (renderOnto base n rest) = valueFrom? base n rest := by
  induction n using Nat.strongRecOn generalizing rest with
  | ind n ih =>
    rw [renderOnto]
    by_cases hn : n < base ∨ base < 2
    · have hlt : n < base := by omega
      rw [dif_pos hn]
      simp [valueFrom?, digit?_digitChar hbase hlt]
    · have hle : base ≤ n := by omega
      have hdiv : n / base < n := Nat.div_lt_self (by omega) (by omega)
      have hmod : n % base < base := Nat.mod_lt _ (by omega)
      rw [dif_neg hn, ih _ hdiv]
      simp only [valueFrom?, digit?_digitChar hbase hmod]
      rw [Nat.div_add_mod']

theorem renderOnto_ne_nil (base n : Nat) (rest : List Char) : renderOnto base n rest ≠ [] := by
  induction n using Nat.strongRecOn generalizing rest with
  | ind n ih =>
    rw [renderOnto]
    by_cases hn : n < base ∨ base < 2
    · rw [dif_pos hn]
      exact List.cons_ne_nil _ _
    · rw [dif_neg hn]
      exact ih _ (Nat.div_lt_self (by omega) (by omega)) _

/-- **A numeral reads as its number.** -/
theorem value?_render {base : Nat} (h2 : 2 ≤ base) (hbase : base ≤ largestBase) (n : Nat) :
    value? base (render base n) = some n := by
  have hvalue := valueFrom?_renderOnto h2 hbase n []
  unfold render
  cases hcs : renderOnto base n [] with
  | nil => exact absurd hcs (renderOnto_ne_nil base n [])
  | cons c cs => rwa [hcs] at hvalue

/-! ### Digits from the last one on -/

theorem renderOnto_append (base n : Nat) (rest more : List Char) :
    renderOnto base n (rest ++ more) = renderOnto base n rest ++ more := by
  induction n using Nat.strongRecOn generalizing rest with
  | ind n ih =>
    rw [renderOnto, renderOnto.eq_1 base n rest]
    by_cases hn : n < base ∨ base < 2
    · rw [dif_pos hn, dif_pos hn, List.cons_append]
    · rw [dif_neg hn, dif_neg hn, ← List.cons_append, ih _ (Nat.div_lt_self (by omega) (by omega))]

theorem render_of_lt {base n : Nat} (h : n < base) : render base n = [digitChar n] := by
  rw [render, renderOnto, dif_pos (.inl h)]

/-- The last digit of a numeral, and the numeral in front of it. -/
theorem render_concat {base n d : Nat} (h2 : 2 ≤ base) (pos : 0 < n) (hd : d < base) :
    render base (n * base + d) = render base n ++ [digitChar d] := by
  have large : base ≤ n * base := Nat.le_mul_of_pos_left base pos
  have quotient : (n * base + d) / base = n := by
    rw [Nat.mul_comm, Nat.mul_add_div (by omega), Nat.div_eq_of_lt hd, Nat.add_zero]
  have remainder : (n * base + d) % base = d := by
    rw [Nat.mul_comm, Nat.mul_add_mod, Nat.mod_eq_of_lt hd]
  rw [render, renderOnto, dif_neg (by omega), quotient, remainder]
  exact renderOnto_append base n [] [digitChar d]

/-- A proof for all numbers goes over their digits: first one digit, then a number with one more digit behind. -/
theorem digitsInduction {base : Nat} (h2 : 2 ≤ base) {motive : Nat → Prop} (digit : ∀ d < base, motive d)
    (concat : ∀ n d, 0 < n → d < base → motive n → motive (n * base + d)) (n : Nat) : motive n := by
  induction n using Nat.strongRecOn with
  | ind n ih =>
    by_cases small : n < base
    · exact digit n small
    · have pos : 0 < n / base := Nat.div_pos (by omega) (by omega)
      rw [← Nat.div_add_mod' n base]
      exact concat _ _ pos (Nat.mod_lt n (by omega)) (ih _ (Nat.div_lt_self (by omega) (by omega)))

/-- The lowest `count` digits of a number. -/
def lowest (base : Nat) : (count n : Nat) → List Char
  | 0, _ => []
  | count + 1, n => lowest base count (n / base) ++ [digitChar (n % base)]

theorem lowest_concat {base count n d : Nat} (hd : d < base) :
    lowest base (count + 1) (n * base + d) = lowest base count n ++ [digitChar d] := by
  rw [lowest, Nat.mul_comm, Nat.mul_add_div (by omega), Nat.div_eq_of_lt hd, Nat.add_zero, Nat.mul_add_mod,
    Nat.mod_eq_of_lt hd]

/-- The digits of a number are those of its upper part and then those of its lower part, zeros included. -/
theorem render_append {base : Nat} (h2 : 2 ≤ base) {upper : Nat} (pos : 0 < upper) (count : Nat) :
    ∀ lower < base ^ count,
      render base (upper * base ^ count + lower) = render base upper ++ lowest base count lower := by
  induction count with
  | zero =>
    intro lower small
    obtain rfl : lower = 0 := by simpa using small
    simp [lowest]
  | succ count ih =>
    intro lower small
    have digit : lower % base < base := Nat.mod_lt lower (by omega)
    have less : lower / base < base ^ count := Nat.div_lt_of_lt_mul (by rwa [Nat.mul_comm, ← Nat.pow_succ])
    have positive : 0 < upper * base ^ count + lower / base :=
      Nat.add_pos_left (Nat.mul_pos pos (Nat.pow_pos (by omega))) _
    have split : upper * base ^ (count + 1) + lower = (upper * base ^ count + lower / base) * base + lower % base := by
      rw [Nat.pow_succ, Nat.add_mul, Nat.mul_assoc, Nat.add_assoc, Nat.div_add_mod']
    rw [split, render_concat h2 positive digit, ih _ less, List.append_assoc, lowest]

theorem lowest_zero (base count : Nat) : lowest base count 0 = List.replicate count '0' := by
  induction count with
  | zero => rfl
  | succ count ih =>
    rw [lowest, Nat.zero_div, Nat.zero_mod, ih, List.replicate_succ']
    rfl

/-- Zeros in front of a numeral make it the digits that are wanted. -/
theorem replicate_append_render {base : Nat} (h2 : 2 ≤ base) (n : Nat) : ∀ count, n < base ^ (count + 1) →
    List.replicate (count + 1 - (render base n).length) '0' ++ render base n = lowest base (count + 1) n := by
  induction n using digitsInduction h2 with
  | digit d small =>
    intro count _
    have last : lowest base (count + 1) (0 * base + d) = lowest base count 0 ++ [digitChar d] := lowest_concat small
    rw [Nat.zero_mul, Nat.zero_add, lowest_zero] at last
    rw [render_of_lt small, last]
    rfl
  | concat n d pos small ih =>
    intro count bound
    have less : n < base ^ count := by
      rw [Nat.pow_succ] at bound
      exact Nat.lt_of_mul_lt_mul_right (Nat.lt_of_le_of_lt (Nat.le_add_right _ d) bound)
    cases count with
    | zero =>
      rw [Nat.pow_zero] at less
      omega
    | succ count =>
      rw [render_concat h2 pos small, lowest_concat small, ← ih count less, List.length_append, ← List.append_assoc,
        List.length_singleton, Nat.add_sub_add_right]

/-- The numeral of a positive number does not begin with a zero. -/
theorem head?_render {base : Nat} (h2 : 2 ≤ base) (hbase : base ≤ largestBase) (n : Nat) (pos : 0 < n) :
    (render base n).head? ≠ some '0' := by
  induction n using digitsInduction h2 with
  | digit d small =>
    have other : ∀ k < largestBase, digitChar k = '0' → k = 0 := by decide
    rw [render_of_lt small, List.head?_cons]
    intro same
    have zero := other d (Nat.lt_of_lt_of_le small hbase) (Option.some.inj same)
    omega
  | concat n d positive small ih =>
    rw [render_concat h2 positive small, List.head?_append_of_ne_nil (render base n) (renderOnto_ne_nil base n [])]
    exact ih positive

/-! ### Numbers of limited size -/

/-- A minus sign is no digit. -/
theorem digit?_minus {base : Nat} : digit? base '-' = none := by
  simp [digit?]

theorem ne_minus_of_value? {base n : Nat} {c : Char} {cs : List Char} (h : value? base (c :: cs) = some n) :
    c ≠ '-' := by
  rintro rfl
  simp [value?, valueFrom?, digit?_minus] at h

/-- What has a value does not begin with a plus sign. -/
theorem ne_plus_of_value? {base n : Nat} {c : Char} {cs : List Char} (h : value? base (c :: cs) = some n) :
    c ≠ '+' := by
  rintro rfl
  simp [value?, valueFrom?, digit?_plus] at h

/-- Digits are read as their number, unless it is too large. -/
theorem unsigned?_eq_of_value? {base bound n : Nat} {cs : List Char} (h : value? base cs = some n) :
    unsigned? base bound cs = if n < bound then some n else none := by
  unfold unsigned?
  split
  · exact absurd rfl (ne_plus_of_value? h)
  · simp only [h, Option.filter_some, decide_eq_true_eq]

theorem unsigned?_of_value? {base bound n : Nat} {cs : List Char} (h : value? base cs = some n) (hn : n < bound) :
    unsigned? base bound cs = some n := by
  rw [unsigned?_eq_of_value? h, if_pos hn]

theorem unsigned?_render {base bound n : Nat} (h2 : 2 ≤ base) (hbase : base ≤ largestBase) (hn : n < bound) :
    unsigned? base bound (render base n) = some n :=
  unsigned?_of_value? (value?_render h2 hbase n) hn

theorem signed?_eq_of_value? {bits n : Nat} {cs : List Char} (h : value? 10 cs = some n) :
    signed? bits cs = if n < Nat.pow 2 (bits - 1) then some (n : Int) else none := by
  unfold signed?
  split
  · exact absurd rfl (ne_minus_of_value? h)
  · exact absurd rfl (ne_plus_of_value? h)
  · rw [h, Option.filter_some]
    simp only [decide_eq_true_eq]
    split
    · rfl
    · rfl

/-- An integer is read from its numeral exactly when it fits the bits. -/
theorem signed?_decimalInt_eq (bits : Nat) (n : Int) : signed? bits (decimalInt n).toList =
    if -(Nat.pow 2 (bits - 1) : Int) ≤ n ∧ n < Nat.pow 2 (bits - 1) then some n else none := by
  have value (k : Nat) : value? 10 (render 10 k) = some k := value?_render (by omega) (by decide) k
  cases n with
  | ofNat k =>
    have fits : (-(Nat.pow 2 (bits - 1) : Int) ≤ Int.ofNat k ∧ Int.ofNat k < Nat.pow 2 (bits - 1)) ↔
        k < Nat.pow 2 (bits - 1) := by
      rw [Int.ofNat_eq_natCast]
      omega
    rw [decimalInt, decimal, String.toList_ofList, signed?_eq_of_value? (value k)]
    exact if_congr fits.symm rfl rfl
  | negSucc k =>
    have fits : (-(Nat.pow 2 (bits - 1) : Int) ≤ Int.negSucc k ∧ Int.negSucc k < Nat.pow 2 (bits - 1)) ↔
        k + 1 ≤ Nat.pow 2 (bits - 1) := by omega
    rw [decimalInt, String.toList_ofList, signed?, value, Option.filter_some, if_congr fits rfl rfl]
    simp only [decide_eq_true_eq]
    split
    · rfl
    · rfl

/-- **An integer is read back from its numeral.** -/
theorem signed?_decimalInt {bits : Nat} {n : Int} (low : -(Nat.pow 2 (bits - 1) : Int) ≤ n)
    (high : n < Nat.pow 2 (bits - 1)) : signed? bits (decimalInt n).toList = some n := by
  rw [signed?_decimalInt_eq, if_pos ⟨low, high⟩]

/-! ### One numeral for each integer -/

/-- The text is the numeral of the integer: a minus sign when it is negative, and then the digits of its distance from
zero, with no zero in front of another digit. -/
def Canonical (s : String) (n : Int) : Prop :=
  ∃ digits : List Char, s.toList = (if n < 0 then '-' :: digits else digits) ∧ value? 10 digits = some n.natAbs ∧
    (digits.head? = some '0' → digits = ['0'])

theorem canonical_decimalInt (n : Int) : Canonical (decimalInt n) n := by
  have value (k : Nat) : value? 10 (render 10 k) = some k := value?_render (by omega) (by decide) k
  have head (k : Nat) (pos : 0 < k) : (render 10 k).head? ≠ some '0' := head?_render (by omega) (by decide) k pos
  cases n with
  | ofNat k =>
    have unsigned : ¬ Int.ofNat k < 0 := Int.not_lt.mpr (Int.natCast_nonneg k)
    refine ⟨render 10 k, ?_, value k, fun zero => ?_⟩
    · rw [decimalInt, decimal, String.toList_ofList, if_neg unsigned]
    · obtain rfl | pos := Nat.eq_zero_or_pos k
      · exact render_of_lt (by decide)
      · exact absurd zero (head k pos)
  | negSucc k =>
    refine ⟨render 10 (k + 1), ?_, value (k + 1), fun zero => absurd zero (head (k + 1) k.succ_pos)⟩
    rw [decimalInt, String.toList_ofList, if_pos (Int.negSucc_lt_zero k)]

theorem lt_of_digit? {base d : Nat} {c : Char} (h : digit? base c = some d) : d < base := by
  simp only [digit?, Option.ite_none_right_eq_some, Option.some.injEq] at h
  obtain ⟨small, rfl⟩ := h
  exact small

theorem value?_eq_valueFrom? {base : Nat} {cs : List Char} (nonempty : cs ≠ []) :
    value? base cs = valueFrom? base 0 cs := by
  obtain ⟨c, cs, rfl⟩ := List.exists_cons_of_ne_nil nonempty
  rfl

/-- What is read from digits with one more behind them. -/
theorem valueFrom?_concat (base : Nat) (cs : List Char) (c : Char) : ∀ acc : Nat, valueFrom? base acc (cs ++ [c]) =
    (valueFrom? base acc cs).bind fun n => (digit? base c).map fun d => n * base + d := by
  induction cs with
  | nil =>
    intro acc
    simp only [List.nil_append, valueFrom?, Option.bind_some]
    cases digit? base c with
    | none => rfl
    | some d => rfl
  | cons first cs ih =>
    intro acc
    rw [List.cons_append, valueFrom?, valueFrom?]
    cases digit? base first with
    | none => rfl
    | some d => exact ih (acc * base + d)

/-- Digits in lower case that do not begin with a zero are the numeral of their number. -/
theorem eq_render_of_value? {base : Nat} (h2 : 2 ≤ base) {cs : List Char} :
    ∀ {n : Nat}, value? base cs = some n → (∀ c ∈ cs, ∀ d, digit? base c = some d → c = digitChar d) →
      (cs.head? = some '0' → cs = ['0']) → cs = render base n := by
  induction cs using List.reverseRecOn with
  | nil =>
    intro n h
    exact absurd h nofun
  | append_singleton cs c ih =>
    intro n h lower lead
    rw [value?_eq_valueFrom? (by simp), valueFrom?_concat] at h
    obtain ⟨m, front, h⟩ := Option.bind_eq_some_iff.mp h
    obtain ⟨d, digit, rfl⟩ := Option.map_eq_some_iff.mp h
    have small : d < base := lt_of_digit? digit
    have last : c = digitChar d := lower c (by simp) d digit
    by_cases empty : cs = []
    · subst empty
      have zero : m = 0 := (Option.some.inj front).symm
      rw [zero, Nat.zero_mul, Nat.zero_add, render_of_lt small, last]
      rfl
    · -- The digits in front do not begin with a zero either, so their number is not zero.
      have head : cs.head? ≠ some '0' := by
        intro first
        have all : cs ++ [c] = ['0'] := lead (by rw [List.head?_append_of_ne_nil cs empty, first])
        have one : cs.length + 1 = 1 := by simpa using congrArg List.length all
        exact empty (List.length_eq_zero_iff.mp (Nat.succ.inj one))
      have numeral : cs = render base m := by
        apply ih
        · rw [value?_eq_valueFrom? empty, front]
        · exact fun other mem => lower other (List.mem_append_left [c] mem)
        · exact fun first => absurd first head
      have pos : 0 < m := by
        rcases Nat.eq_zero_or_pos m with rfl | pos
        · rw [numeral, render_of_lt (by omega)] at head
          exact absurd rfl head
        · exact pos
      rw [render_concat h2 pos small, ← numeral, last]

/-- Digits in lower case are the numeral of their number, or more than it has, since zeros in front add nothing. -/
theorem eq_render_or_longer {base : Nat} (h2 : 2 ≤ base) : ∀ {cs : List Char} {n : Nat}, value? base cs = some n →
    (∀ c ∈ cs, ∀ d, digit? base c = some d → c = digitChar d) →
      cs = render base n ∨ (render base n).length < cs.length
  | [], _, h, _ => absurd h nofun
  | [c], _, h, lower => .inl (eq_render_of_value? h2 h lower fun first => congrArg (· :: []) (Option.some.inj first))
  | c :: c' :: cs, n, h, lower => by
    by_cases lead : c = '0'
    · subst lead
      have zero : digit? base '0' = some 0 := if_pos (show 0 < base by omega)
      have rest : value? base (c' :: cs) = some n := by
        rw [value?_eq_valueFrom? (by simp), valueFrom?, zero] at h
        rw [value?_eq_valueFrom? (by simp), ← h, Nat.zero_mul]
      right
      rcases eq_render_or_longer h2 rest fun c hc => lower c (List.mem_cons_of_mem _ hc) with same | longer
      · rw [← same]
        exact Nat.lt_succ_self _
      · exact Nat.lt_succ_of_lt longer
    · exact .inl (eq_render_of_value? h2 h lower fun first => absurd (Option.some.inj first) lead)

/-- Figures have no other case. -/
theorem eq_digitChar_of_digit? {c : Char} {d : Nat} (h : digit? 10 c = some d) : c = digitChar d := by
  have small : d < 10 := lt_of_digit? h
  have code : c.toNat = 48 + d := by
    simp only [digit?, Option.ite_none_right_eq_some, Option.some.injEq] at h
    split_ifs at h <;> omega
  rw [← Char.ofNat_toNat c, code, digitChar, if_pos small]

/-- **An integer has one numeral.** -/
theorem canonical_iff {s : String} {n : Int} : Canonical s n ↔ s = decimalInt n := by
  constructor
  · rintro ⟨digits, spelt, value, lead⟩
    have numeral : digits = render 10 n.natAbs :=
      eq_render_of_value? (by decide) value (fun _ _ _ => eq_digitChar_of_digit?) lead
    rw [numeral] at spelt
    apply String.toList_inj.mp
    rw [spelt]
    cases n with
    | ofNat k =>
      have unsigned : ¬ Int.ofNat k < 0 := Int.not_lt.mpr (Int.natCast_nonneg k)
      rw [if_neg unsigned, decimalInt, decimal, String.toList_ofList]
      rfl
    | negSucc k =>
      rw [if_pos (Int.negSucc_lt_zero k), decimalInt, String.toList_ofList]
      rfl
  · rintro rfl
    exact canonical_decimalInt n

theorem decimalInt_ne_empty (n : Int) : decimalInt n ≠ "" := by
  cases n with
  | ofNat k =>
    intro empty
    exact renderOnto_ne_nil 10 k [] (String.ofList_eq_empty_iff.mp empty)
  | negSucc k => simp [decimalInt]

end Numeral
end OracleRelay
