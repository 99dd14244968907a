/-
# Numbers as octets and back

The octets of a number spell it in either order, as far as they reach (`littleEndian_ofNatLittle`,
`bigEndian_ofNatBig`), and zeros in front of it do not count (`bigEndian_dropWhile`). To take some octets is to split
the sequence after them (`take?_eq_some_iff`).

Key definitions: `Octets.ofNatBig`.
Key theorems: `Octets.littleEndian_ofNatLittle`, `Octets.bigEndian_eq_littleEndian_reverse`,
`Octets.take?_eq_some_iff`, `Octets.hasLength_iff`.
-/
import Mathlib.Algebra.Order.Ring.Nat
import Mathlib.Data.List.Induction
import OracleRelay.Text.Octets

namespace OracleRelay
namespace Octets

/-- The lowest `count` octets of a number, the most significant one first. -/
def ofNatBig (count n : Nat) : List UInt8 := (ofNatLittle count n).reverse

@[simp] theorem length_ofNatLittle (count n : Nat) : (ofNatLittle count n).length = count := by
  induction count generalizing n with
  | zero => rfl
  | succ count ih => simp [ofNatLittle, ih]

@[simp] theorem length_ofNatBig (count n : Nat) : (ofNatBig count n).length = count := by
  simp [ofNatBig]

theorem toNat_ofNat {n : Nat} (octet : n < 256) : (UInt8.ofNat n).toNat = n := by
  rw [UInt8.toNat_ofNat']
  omega

/-- **The octets of a number spell it**, as far as they reach. -/
theorem littleEndian_ofNatLittle (count n : Nat) : littleEndian (ofNatLittle count n) = n % 256 ^ count := by
  induction count generalizing n with
  | zero => simp [ofNatLittle, littleEndian, Nat.mod_one]
  | succ count ih =>
    rw [ofNatLittle, littleEndian, toNat_ofNat (Nat.mod_lt n (by decide)), ih, Nat.pow_succ,
      Nat.mul_comm (256 ^ count), Nat.mod_mul]

theorem bigEndian_concat (bs : List UInt8) (b : UInt8) : bigEndian (bs ++ [b]) = bigEndian bs * 256 + b.toNat := by
  simp [bigEndian, List.foldl_append]

/-- The two orders spell the same number from one end and from the other. -/
theorem bigEndian_eq_littleEndian_reverse (bs : List UInt8) : bigEndian bs = littleEndian bs.reverse := by
  induction bs using List.reverseRecOn with
  | nil => rfl
  | append_singleton bs b ih =>
    rw [bigEndian_concat, List.reverse_append, List.reverse_singleton, List.singleton_append, littleEndian, ← ih]
    omega

theorem bigEndian_ofNatBig (count n : Nat) : bigEndian (ofNatBig count n) = n % 256 ^ count := by
  rw [bigEndian_eq_littleEndian_reverse, ofNatBig, List.reverse_reverse, littleEndian_ofNatLittle]

/-- Zeros in front do not count. -/
theorem bigEndian_dropWhile (bs : List UInt8) : bigEndian (bs.dropWhile (· = 0)) = bigEndian bs := by
  induction bs with
  | nil => rfl
  | cons b bs ih =>
    by_cases zero : b = 0
    · subst zero
      rw [List.dropWhile_cons_of_pos (by simp), ih]
      rfl
    · rw [List.dropWhile_cons_of_neg (by simpa using zero)]

theorem bigEndian_replicate_append (zeros : Nat) (bs : List UInt8) :
    bigEndian (List.replicate zeros 0 ++ bs) = bigEndian bs := by
  induction zeros with
  | zero => rfl
  | succ zeros ih =>
    rw [← ih, List.replicate_succ, List.cons_append]
    rfl

/-! ### Taking octets -/

theorem take?_eq_some_iff {n : Nat} {bs taken rest : List UInt8} :
    take? n bs = some (taken, rest) ↔ taken.length = n ∧ taken ++ rest = bs := by
  unfold take?
  constructor
  · intro h
    split at h
    · rename_i hn
      cases h
      exact ⟨List.length_take_of_le hn, List.take_append_drop n bs⟩
    · cases h
  · rintro ⟨rfl, rfl⟩
    simp

theorem take?_append {n : Nat} {taken : List UInt8} (length : taken.length = n) (rest : List UInt8) :
    take? n (taken ++ rest) = some (taken, rest) :=
  take?_eq_some_iff.mpr ⟨length, rfl⟩

theorem hasLength_iff (n : Nat) (bs : List UInt8) : hasLength n bs = true ↔ n ≤ bs.length := by
  induction n generalizing bs with
  | zero => simp [hasLength]
  | succ n ih =>
    cases bs with
    | nil => simp [hasLength]
    | cons b bs => simp [hasLength, ih]

end Octets
end OracleRelay
