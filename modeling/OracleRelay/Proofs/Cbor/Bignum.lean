/-
# Big numbers keep their value

An octet moves the limbs up and is put below them, with no sum beyond its word (`Limbs.shift_spec`). So the limbs of
octets hold the number that the octets spell (`Limbs.ofOctets_spec`), and their digits are its numeral
(`Limbs.numeral_ofOctets`). The next numeral is found on the digits (`increment_decimal`). So a byte string under a
bignum tag has the JSON value of the integer that it stands for (`bignumToJson_bytes`), which is exact
(`exact_intToJson`).

Key definitions: `Cbor.Limbs.value`, `Cbor.Limbs.Proper`, `Cbor.Limbs.Fits`, `Cbor.Raisable`, `Cbor.Exact`.
Key theorems: `Cbor.Limbs.shift_spec`, `Cbor.Limbs.numeral_ofOctets`, `Cbor.increment_decimal`,
`Cbor.bignumToJson_bytes`, `Cbor.bignum_exact`.
-/
import Mathlib.Data.List.Induction
import Mathlib.Tactic.Ring
import OracleRelay.Cbor.Params
import OracleRelay.Proofs.Text.Numeral
import OracleRelay.Proofs.Text.Octets
import OracleRelay.Proofs.Text.Utf8

namespace OracleRelay
namespace Cbor
namespace Limbs

/-! ### What limbs hold -/

/-- The number of limbs, the lowest first. -/
def value : List UInt32 → Nat
  | [] => 0
  | limb :: rest => limb.toNat + 10 ^ width * value rest

/-- Each limb is below the unit, and what is above a limb is not zero. -/
def Proper : List UInt32 → Prop
  | [] => True
  | limb :: rest => limb.toNat < 10 ^ width ∧ (rest ≠ [] → 0 < value rest) ∧ Proper rest

/-- The sums of a pass over the limbs fit their 64 bits. -/
def Fits : List UInt32 → UInt64 → Prop
  | [], _ => True
  | limb :: rest, carry =>
    limb.toNat * 256 + carry.toNat < Nat.pow 2 64 ∧ Fits rest (shiftLimb limb carry).2

theorem toNat_unit : unit.toNat = 10 ^ width := rfl

/-- What is left of a number below the unit is a limb, and no digit of it is lost. -/
theorem toNat_remainder (v : UInt64) : (v % unit).toUInt32.toNat = v.toNat % 10 ^ width := by
  have small : v.toNat % 10 ^ width < 10 ^ width := Nat.mod_lt _ (by decide)
  have fits : 10 ^ width < 2 ^ 32 := by decide
  rw [UInt64.toNat_toUInt32, UInt64.toNat_mod, toNat_unit, Nat.mod_eq_of_lt (small.trans fits)]

/-! ### One octet -/

/-- The sum for a limb below the unit fits, as long as no more than an octet is carried into it. -/
theorem sum_fits {limb : UInt32} {carry : UInt64} (small : limb.toNat < 10 ^ width) (octet : carry.toNat < 256) :
    limb.toNat * 256 + carry.toNat < Nat.pow 2 64 := by
  rw [show (10 : Nat) ^ width = 1000000000 from rfl] at small
  rw [show Nat.pow 2 64 = 18446744073709551616 from rfl]
  omega

theorem toNat_sum {limb : UInt32} {carry : UInt64} (small : limb.toNat < 10 ^ width) (octet : carry.toNat < 256) :
    (limb.toUInt64 * 256 + carry).toNat = limb.toNat * 256 + carry.toNat := by
  have fits : limb.toNat * 256 + carry.toNat < 2 ^ 64 := sum_fits small octet
  have product : limb.toNat * 256 < 2 ^ 64 := Nat.lt_of_le_of_lt (Nat.le_add_right _ _) fits
  rw [UInt64.toNat_add, UInt64.toNat_mul, UInt32.toNat_toUInt64, show (256 : UInt64).toNat = 256 from rfl,
    Nat.mod_eq_of_lt product, Nat.mod_eq_of_lt fits]

/-- **One limb.** It stays below the unit, it carries no more than an octet on, and nothing is lost. -/
theorem shiftLimb_spec {limb : UInt32} {carry : UInt64} (small : limb.toNat < 10 ^ width) (octet : carry.toNat < 256) :
    (shiftLimb limb carry).1.toNat < 10 ^ width ∧ (shiftLimb limb carry).2.toNat < 256 ∧
      (shiftLimb limb carry).1.toNat + 10 ^ width * (shiftLimb limb carry).2.toNat =
        limb.toNat * 256 + carry.toNat := by
  have low : (shiftLimb limb carry).1.toNat = (limb.toNat * 256 + carry.toNat) % 10 ^ width := by
    rw [shiftLimb, toNat_remainder, toNat_sum small octet]
  have high : (shiftLimb limb carry).2.toNat = (limb.toNat * 256 + carry.toNat) / 10 ^ width := by
    rw [shiftLimb, UInt64.toNat_div, toNat_sum small octet, toNat_unit]
  have below : limb.toNat * 256 + carry.toNat < 10 ^ width * 256 := by omega
  rw [low, high]
  exact ⟨Nat.mod_lt _ (by decide), Nat.div_lt_of_lt_mul below, Nat.mod_add_div _ _⟩

theorem spill_zero : spill 0 = [] := by rw [spill, if_pos rfl]

/-- What is carried out of the topmost limb becomes limbs of its value. -/
theorem value_spill (carry : UInt64) : value (spill carry) = carry.toNat := by
  induction carry using spill.induct with
  | case1 =>
    rw [spill_zero]
    rfl
  | case2 carry more ih =>
    rw [spill, if_neg more, value, ih, toNat_remainder, UInt64.toNat_div, toNat_unit, Nat.mod_add_div]

/-- There are such limbs only where something is carried out. -/
theorem spill_pos {carry : UInt64} (nonempty : spill carry ≠ []) : 0 < carry.toNat := by
  apply Nat.pos_of_ne_zero
  intro zero
  have nothing : carry = 0 := UInt64.toNat_inj.mp zero
  rw [nothing] at nonempty
  exact nonempty spill_zero

theorem proper_spill (carry : UInt64) : Proper (spill carry) := by
  induction carry using spill.induct with
  | case1 =>
    rw [spill_zero]
    trivial
  | case2 carry more ih =>
    have below : (carry % unit).toUInt32.toNat < 10 ^ width := by
      rw [toNat_remainder]
      exact Nat.mod_lt _ (by decide)
    have above (nonempty : spill (carry / unit) ≠ []) : 0 < value (spill (carry / unit)) := by
      rw [value_spill]
      exact spill_pos nonempty
    rw [spill, if_neg more]
    exact ⟨below, above, ih⟩

/-- Limbs whose number is not zero keep it so, and none are made of zero alone. -/
theorem shift_pos {limbs : List UInt32} {carry : UInt64} (positive : limbs ≠ [] → 0 < value limbs)
    (nonempty : shift limbs carry ≠ []) : 0 < value limbs * 256 + carry.toNat := by
  cases limbs with
  | nil =>
    have carried : 0 < carry.toNat := spill_pos nonempty
    omega
  | cons limb rest =>
    have before : 0 < value (limb :: rest) := positive (List.cons_ne_nil limb rest)
    omega

/-- **One octet.** The number is moved up and the octet is put below it, and no sum is too large. -/
theorem shift_spec : ∀ (limbs : List UInt32) (carry : UInt64), Proper limbs → carry.toNat < 256 →
    value (shift limbs carry) = value limbs * 256 + carry.toNat ∧ Proper (shift limbs carry) ∧ Fits limbs carry
  | [], carry, _, _ => by
    refine ⟨?_, proper_spill carry, trivial⟩
    rw [shift, value_spill, value, Nat.zero_mul, Nat.zero_add]
  | limb :: rest, carry, ⟨small, positive, proper⟩, octet => by
    obtain ⟨below, octet', whole⟩ := shiftLimb_spec small octet
    obtain ⟨shifted, aboveProper, fits⟩ := shift_spec rest (shiftLimb limb carry).2 proper octet'
    have above (nonempty : shift rest (shiftLimb limb carry).2 ≠ []) :
        0 < value (shift rest (shiftLimb limb carry).2) := by
      rw [shifted]
      exact shift_pos positive nonempty
    refine ⟨?_, ⟨below, above, aboveProper⟩, sum_fits small octet, fits⟩
    calc value (shift (limb :: rest) carry)
        = (shiftLimb limb carry).1.toNat + 10 ^ width * (value rest * 256 + (shiftLimb limb carry).2.toNat) := by
          rw [shift, value, shifted]
      _ = (shiftLimb limb carry).1.toNat + 10 ^ width * (shiftLimb limb carry).2.toNat +
            10 ^ width * value rest * 256 := by ring
      _ = value (limb :: rest) * 256 + carry.toNat := by
          rw [whole, value]
          ring

/-! ### All octets -/

theorem ofOctets_concat (bs : List UInt8) (b : UInt8) : ofOctets (bs ++ [b]) = shift (ofOctets bs) b.toUInt64 := by
  simp [ofOctets, List.foldl_append]

/-- There is always a limb, were it only the zero to begin with. -/
theorem ofOctets_ne_nil (bs : List UInt8) : ofOctets bs ≠ [] := by
  induction bs using List.reverseRecOn with
  | nil => exact List.cons_ne_nil 0 []
  | append_singleton bs b ih =>
    obtain ⟨limb, rest, same⟩ := List.exists_cons_of_ne_nil ih
    rw [ofOctets_concat, same, shift]
    exact List.cons_ne_nil _ _

theorem toNat_octet_lt (b : UInt8) : b.toUInt64.toNat < 256 := by
  rw [UInt8.toNat_toUInt64]
  exact b.toNat_lt

/-- **The limbs of octets hold the number that the octets spell.** -/
theorem ofOctets_spec (bs : List UInt8) : value (ofOctets bs) = Octets.bigEndian bs ∧ Proper (ofOctets bs) := by
  induction bs using List.reverseRecOn with
  | nil => exact ⟨rfl, by decide, absurd rfl, trivial⟩
  | append_singleton bs b ih =>
    obtain ⟨same, proper⟩ := ih
    obtain ⟨shifted, properShifted, _⟩ := shift_spec (ofOctets bs) b.toUInt64 proper (toNat_octet_lt b)
    rw [ofOctets_concat]
    exact ⟨by rw [shifted, same, UInt8.toNat_toUInt64, Octets.bigEndian_concat], properShifted⟩

/-- **No sum is too large**, whichever octet comes next. -/
theorem ofOctets_fits (bs : List UInt8) (b : UInt8) : Fits (ofOctets bs) b.toUInt64 :=
  (shift_spec _ _ (ofOctets_spec bs).2 (toNat_octet_lt b)).2.2

/-! ### Digits -/

/-- The number of limbs, the topmost first. -/
theorem value_reverse (limbs : List UInt32) :
    value limbs.reverse = limbs.foldl (fun n limb => n * 10 ^ width + limb.toNat) 0 := by
  induction limbs using List.reverseRecOn with
  | nil => rfl
  | append_singleton limbs limb ih =>
    rw [List.reverse_append, List.reverse_singleton, List.singleton_append, value, ih, List.foldl_append,
      List.foldl_cons, List.foldl_nil]
    ring

theorem padded_render {n : Nat} (small : n < 10 ^ width) :
    padded (Numeral.render 10 n) = Numeral.lowest 10 width n :=
  Numeral.replicate_append_render (by decide) n 8 small

/-- Further limbs put their digits behind those of a number that is not zero. -/
theorem render_foldl (limbs : List UInt32) : (∀ limb ∈ limbs, limb.toNat < 10 ^ width) → ∀ n, 0 < n →
    Numeral.render 10 (limbs.foldl (fun n limb => n * 10 ^ width + limb.toNat) n) =
      Numeral.render 10 n ++ limbs.flatMap fun limb => padded (Numeral.render 10 limb.toNat) := by
  induction limbs with
  | nil =>
    intro _ n _
    rw [List.foldl_nil, List.flatMap_nil, List.append_nil]
  | cons limb limbs ih =>
    intro small n pos
    have first : limb.toNat < 10 ^ width := small limb (List.mem_cons_self ..)
    have more : 0 < n * 10 ^ width + limb.toNat := Nat.add_pos_left (Nat.mul_pos pos (by decide)) _
    rw [List.foldl_cons, ih (fun other mem => small other (List.mem_cons_of_mem _ mem)) _ more,
      Numeral.render_append (by decide) pos width _ first, List.flatMap_cons, padded_render first, List.append_assoc]

theorem Proper.small : ∀ {limbs : List UInt32}, Proper limbs → ∀ limb ∈ limbs, limb.toNat < 10 ^ width
  | [], _, _, mem => absurd mem List.not_mem_nil
  | _ :: _, ⟨first, _, more⟩, limb, mem => by
    obtain rfl | mem := List.mem_cons.mp mem
    · exact first
    · exact more.small limb mem

/-- The topmost of several limbs is not zero. -/
theorem Proper.top : ∀ {below : List UInt32} {top : UInt32}, Proper (below ++ [top]) → below ≠ [] → 0 < top.toNat
  | [], _, _, several => absurd rfl several
  | [_], top, ⟨_, positive, _⟩, _ => by
    have alone : value [top] = top.toNat := rfl
    have more : 0 < value [top] := positive (List.cons_ne_nil top [])
    omega
  | _ :: limb :: below, _, ⟨_, _, more⟩, _ => more.top (List.cons_ne_nil limb below)

theorem digits_concat (below : List UInt32) (top : UInt32) : digits (below ++ [top]) =
    Numeral.render 10 top.toNat ++ below.reverse.flatMap fun limb => padded (Numeral.render 10 limb.toNat) := by
  rw [digits, List.reverse_append, List.reverse_singleton, List.singleton_append]

theorem value_concat (below : List UInt32) (top : UInt32) : value (below ++ [top]) =
    below.reverse.foldl (fun n limb => n * 10 ^ width + limb.toNat) top.toNat := by
  have whole := value_reverse (top :: below.reverse)
  rw [List.reverse_cons, List.reverse_reverse, List.foldl_cons, Nat.zero_mul, Nat.zero_add] at whole
  exact whole

/-- **The digits of limbs are those of their number.** -/
theorem digits_eq {limbs : List UInt32} (proper : Proper limbs) (nonempty : limbs ≠ []) :
    digits limbs = Numeral.render 10 (value limbs) := by
  obtain ⟨below, top, rfl⟩ := List.eq_nil_or_concat' limbs |>.resolve_left nonempty
  rw [digits_concat, value_concat]
  by_cases alone : below = []
  · rw [alone, List.reverse_nil, List.flatMap_nil, List.foldl_nil, List.append_nil]
  · have small : ∀ limb ∈ below.reverse, limb.toNat < 10 ^ width := by
      intro limb mem
      exact proper.small limb (List.mem_append_left [top] (List.mem_reverse.mp mem))
    rw [render_foldl below.reverse small top.toNat (proper.top alone)]

/-- **The numeral of octets is that of the number they spell.** -/
theorem numeral_ofOctets (bs : List UInt8) : numeral (ofOctets bs) = Numeral.decimal (Octets.bigEndian bs) := by
  obtain ⟨same, proper⟩ := ofOctets_spec bs
  rw [numeral, digits_eq proper (ofOctets_ne_nil bs), same, Numeral.decimal]

end Limbs

/-! ### The next numeral -/

/-- The octet that is raised has a next one. -/
def Raisable : List UInt8 → Prop
  | [] => True
  | d :: ds => if d = 0x39 then Raisable ds else d.toNat + 1 < 256

/-- The octets of the numeral of `n`, the last one first. -/
def reversed (n : Nat) : List UInt8 := (Utf8.encode (Numeral.render 10 n)).reverse

theorem encode_digit : ∀ d < 10, Utf8.encode [Numeral.digitChar d] = [UInt8.ofNat (0x30 + d)] := by decide

theorem reversed_digit {d : Nat} (hd : d < 10) : reversed d = [UInt8.ofNat (0x30 + d)] := by
  rw [reversed, Numeral.render_of_lt hd, encode_digit d hd, List.reverse_singleton]

theorem reversed_concat {n d : Nat} (pos : 0 < n) (hd : d < 10) :
    reversed (n * 10 + d) = UInt8.ofNat (0x30 + d) :: reversed n := by
  have parts : Utf8.encode (Numeral.render 10 n ++ [Numeral.digitChar d]) =
      Utf8.encode (Numeral.render 10 n) ++ Utf8.encode [Numeral.digitChar d] := List.flatMap_append
  rw [reversed, Numeral.render_concat (by decide) pos hd, parts, encode_digit d hd, List.reverse_append,
    List.reverse_singleton, List.singleton_append, reversed]

/-- Raising a digit other than nine. -/
theorem digit_succ : ∀ d < 9, UInt8.ofNat (0x30 + d) ≠ 0x39 ∧
    UInt8.ofNat (0x30 + d) + 1 = UInt8.ofNat (0x30 + (d + 1)) ∧ (UInt8.ofNat (0x30 + d)).toNat + 1 < 256 := by decide

/-- **The digits of the next number**, and the octet that is raised has a next one. -/
theorem raise_reversed (n : Nat) : raise (reversed n) = reversed (n + 1) ∧ Raisable (reversed n) := by
  induction n using Numeral.digitsInduction (by decide : 2 ≤ 10) with
  | digit d small =>
    rw [reversed_digit small]
    obtain low | rfl : d < 9 ∨ d = 9 := by omega
    · obtain ⟨other, next, fits⟩ := digit_succ d low
      rw [raise, Raisable, if_neg other, if_neg other, next, reversed_digit (by omega)]
      exact ⟨rfl, fits⟩
    · have ten : reversed 10 = [0x30, 0x31] := by
        rw [show 10 = 1 * 10 + 0 from rfl, reversed_concat (by decide) (by decide), reversed_digit (by decide)]
        rfl
      rw [ten]
      exact ⟨rfl, trivial⟩
  | concat n d pos small ih =>
    obtain ⟨raised, raisable⟩ := ih
    rw [reversed_concat pos small]
    obtain low | rfl : d < 9 ∨ d = 9 := by omega
    · obtain ⟨other, next, fits⟩ := digit_succ d low
      rw [raise, Raisable, if_neg other, if_neg other, next, Nat.add_assoc, reversed_concat pos (by omega)]
      exact ⟨rfl, fits⟩
    · -- A nine becomes a zero and the number in front of it is raised.
      have next : n * 10 + 9 + 1 = (n + 1) * 10 + 0 := by omega
      have nine : UInt8.ofNat (0x30 + 9) = 0x39 := rfl
      rw [nine, raise, Raisable, if_pos rfl, if_pos rfl, raised, next, reversed_concat n.succ_pos (by decide)]
      exact ⟨rfl, raisable⟩

theorem ofString_decimal (n : Nat) : (Utf8.ofString (Numeral.decimal n)).reverse = reversed n := by
  rw [Utf8.ofString, Numeral.decimal, String.toList_ofList, reversed]

/-- **The numeral of the next number.** -/
theorem increment_decimal (n : Nat) : increment (Numeral.decimal n) = Numeral.decimal (n + 1) := by
  have back : (reversed (n + 1)).reverse = Utf8.encode (Numeral.render 10 (n + 1)) := List.reverse_reverse _
  rw [increment, ofString_decimal, (raise_reversed n).1, back, Utf8.toString?, Utf8.decode?_encode]
  rfl

/-! ### JSON values -/

theorem unsignedToJson_decimal (n : Nat) : unsignedToJson (Numeral.decimal n) = intToJson n := by
  have value : Numeral.value? 10 (Numeral.render 10 n) = some n := Numeral.value?_render (by decide) (by decide) n
  have low : -0x8000000000000000 ≤ (n : Int) := by omega
  rw [unsignedToJson, Numeral.decimal, String.toList_ofList, Numeral.unsigned?_eq_of_value? value, intToJson]
  by_cases fits : n < 0x10000000000000000
  · have fitsInt : (n : Int) < 0x10000000000000000 := by omega
    rw [if_pos fits, if_pos ⟨low, fitsInt⟩]
    rfl
  · have large : ¬ (n : Int) < 0x10000000000000000 := by omega
    rw [if_neg fits, if_neg (fun both => large both.2)]
    rfl

theorem signedToJson_decimalInt {n : Int} (negative : n < 0) :
    signedToJson (Numeral.decimalInt n) = intToJson n := by
  have bound : ((Nat.pow 2 (64 - 1) : Nat) : Int) = 0x8000000000000000 := rfl
  have high : n < 0x8000000000000000 := by omega
  have high' : n < 0x10000000000000000 := by omega
  rw [signedToJson, Numeral.signed?_decimalInt_eq, intToJson, bound]
  by_cases fits : -0x8000000000000000 ≤ n
  · rw [if_pos ⟨fits, high⟩, if_pos ⟨fits, high'⟩]
  · rw [if_neg (fun both => fits both.1), if_neg (fun both => fits both.1)]

theorem minus_append_decimal (n : Nat) : "-" ++ Numeral.decimal (n + 1) = Numeral.decimalInt (-1 - n) := by
  have negative : (-1 - n : Int) = Int.negSucc n := by omega
  rw [negative, Numeral.decimalInt, Numeral.decimal]
  apply String.toList_inj.mp
  rw [String.toList_append, String.toList_ofList, String.toList_ofList, String.toList_ofList, List.singleton_append]

/-- **A byte string under a bignum tag has the JSON value of the integer that it spells.** -/
theorem bignumToJson_bytes (tag : Nat) (bs : List UInt8) : bignumToJson tag (.bytes bs) =
    .ok (intToJson (if tag = positiveBignum then Octets.bigEndian bs else -1 - Octets.bigEndian bs)) := by
  rw [bignumToJson]
  simp only [Limbs.numeral_ofOctets]
  by_cases positive : tag = positiveBignum
  · rw [if_pos positive, if_pos positive, unsignedToJson_decimal]
  · rw [if_neg positive, if_neg positive, increment_decimal, minus_append_decimal,
      signedToJson_decimalInt (by omega)]

/-- The integer fits 64 bits, with or without a sign. -/
def FitsWord (n : Int) : Prop := -0x8000000000000000 ≤ n ∧ n < 0x10000000000000000

/-- The JSON value stands for the integer: a number when it fits 64 bits, else its one numeral. -/
structure Exact (v : Json) (n : Int) : Prop where
  number : FitsWord n → v = .int n
  numeral : ¬ FitsWord n → ∃ numeral, v = .text numeral ∧ Numeral.Canonical numeral n

theorem exact_intToJson (n : Int) : Exact (intToJson n) n where
  number fits := by
    rw [intToJson]
    exact if_pos fits
  numeral large := by
    refine ⟨Numeral.decimalInt n, ?_, Numeral.canonical_decimalInt n⟩
    rw [intToJson]
    exact if_neg large

theorem toJson_bignum {tag : Nat} (big : tag = positiveBignum ∨ tag = negativeBignum) (bs : List UInt8) :
    (Item.tag tag (.bytes bs)).toJson =
      .ok (intToJson (if tag = positiveBignum then Octets.bigEndian bs else -1 - Octets.bigEndian bs)) := by
  rw [Item.toJson, if_pos big, bignumToJson_bytes]

theorem toJson_positive (bs : List UInt8) :
    (Item.tag positiveBignum (.bytes bs)).toJson = .ok (intToJson (Octets.bigEndian bs)) := by
  rw [toJson_bignum (.inl rfl), if_pos rfl]

theorem toJson_negative (bs : List UInt8) :
    (Item.tag negativeBignum (.bytes bs)).toJson = .ok (intToJson (-1 - Octets.bigEndian bs)) := by
  rw [toJson_bignum (.inr rfl), if_neg (by decide)]

/-- **Big numbers are exact.** A byte string of any length stands for its number under the one tag, and for the distance
below minus one under the other. Zeros in front do not count, an integer of the plain kind has the same value, and no
step on the way is too large for its word. -/
theorem bignum_exact (bs : List UInt8) :
    (∃ v, (Item.tag positiveBignum (.bytes bs)).toJson = .ok v ∧ Exact v (Octets.bigEndian bs)) ∧
    (∃ v, (Item.tag negativeBignum (.bytes bs)).toJson = .ok v ∧ Exact v (-1 - Octets.bigEndian bs)) ∧
    (∀ tag ∈ [positiveBignum, negativeBignum], ∀ zeros : Nat,
      (Item.tag tag (.bytes (List.replicate zeros 0 ++ bs))).toJson = (Item.tag tag (.bytes bs)).toJson) ∧
    ((Octets.bigEndian bs : Int) < 0x10000000000000000 →
      (Item.tag positiveBignum (.bytes bs)).toJson = (Item.int (Octets.bigEndian bs)).toJson) ∧
    ((-0x10000000000000000 : Int) ≤ -1 - Octets.bigEndian bs →
      (Item.tag negativeBignum (.bytes bs)).toJson = (Item.int (-1 - Octets.bigEndian bs)).toJson) ∧
    (∀ before b after, bs = before ++ b :: after → Limbs.Fits (Limbs.ofOctets before) b.toUInt64) ∧
    Raisable (Utf8.ofString (Limbs.numeral (Limbs.ofOctets bs))).reverse := by
  refine ⟨⟨_, toJson_positive bs, exact_intToJson _⟩, ⟨_, toJson_negative bs, exact_intToJson _⟩, ?_, ?_, ?_, ?_, ?_⟩
  · intro tag known zeros
    have big : tag = positiveBignum ∨ tag = negativeBignum := (List.mem_cons.mp known).imp id List.mem_singleton.mp
    rw [toJson_bignum big, toJson_bignum big, Octets.bigEndian_replicate_append]
  · intro _
    rw [toJson_positive, Item.toJson]
  · intro _
    rw [toJson_negative, Item.toJson]
  · intro before b _ _
    exact Limbs.ofOctets_fits before b
  · rw [Limbs.numeral_ofOctets, ofString_decimal]
    exact (raise_reversed _).2

end Cbor
end OracleRelay
