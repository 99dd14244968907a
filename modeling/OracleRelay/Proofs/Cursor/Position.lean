/-
# Positions and the cursor as numbers

A position that is written reads back (`Position.parse?_encode`), and so does every hexadecimal quantity that is
small enough (`Position.parse?_of_quantity`). So the bound of a cursor, once it is a number, stays one: noting an
event puts it to the position after the event, if that is further on (`Tracker.parse?_bound_observe`).

Key definitions: `Position.Quantity`.
Key theorems: `Position.parse?_encode`, `Position.parse?_of_quantity`, `Tracker.parse?_bound_observe`.
-/
import OracleRelay.Cursor.Tracker
import OracleRelay.Proofs.Text.Numeral

namespace OracleRelay

namespace Position

theorem parse?_encode {n : Nat} (hn : n < bound) : parse? (encode n) = some n := by
  unfold parse? encode
  rw [String.toList_ofList]
  exact Numeral.unsigned?_render (by decide) (by decide) hn

/-- A text spells a number in hexadecimal: one or more digits of either case behind the mark. -/
def Quantity (s : String) (n : Nat) : Prop :=
  ∃ x digits, s.toList = '0' :: x :: digits ∧ (x = 'x' ∨ x = 'X') ∧ Numeral.value? 16 digits = some n

theorem quantity_encode (n : Nat) : Quantity (encode n) n :=
  ⟨'x', Numeral.render 16 n, String.toList_ofList, .inl rfl, Numeral.value?_render (by decide) (by decide) n⟩

/-- **A quantity is read as its number**, unless it is too large for a position. -/
theorem parse?_of_quantity {s : String} {n : Nat} (h : Quantity s n) : parse? s = if n < bound then some n else none := by
  obtain ⟨x, digits, hs, rfl | rfl, hvalue⟩ := h
  · simp only [parse?, hs]
    exact Numeral.unsigned?_eq_of_value? hvalue
  · simp only [parse?, hs]
    exact Numeral.unsigned?_eq_of_value? hvalue

theorem Quantity.unique {s : String} {n m : Nat} (hn : Quantity s n) (hm : Quantity s m) : n = m := by
  obtain ⟨x, digits, hs, -, hvalue⟩ := hn
  obtain ⟨x', digits', hs', -, hvalue'⟩ := hm
  rw [hs] at hs'
  cases hs'
  exact Option.some.inj (hvalue.symm.trans hvalue')

theorem Quantity.ne_empty {s : String} {n : Nat} (h : Quantity s n) : s ≠ "" := by
  obtain ⟨x, digits, hs, -⟩ := h
  rintro rfl
  cases hs

theorem next_lt (n : Nat) : next n < bound := by
  unfold next bound
  omega

/-- Only the last position has none after it. -/
theorem next_eq {n : Nat} (hn : n + 1 < bound) : next n = n + 1 := by
  unfold next
  omega

end Position

/-- A bound with the mark of a number is no tag of the tip, and not unset. -/
theorem RangeKind.isSentinel_of_mark {kind : RangeKind} {s : String} {rest : List Char} (h : s.toList = '0' :: rest) :
    kind.isSentinel s = false := by
  have hne : s ≠ "" ∧ s ≠ "latest" ∧ s ≠ "latest_state" ∧ s ≠ "latest_mined" := by
    refine ⟨?_, ?_, ?_, ?_⟩ <;> rintro rfl <;> cases h
  obtain ⟨h1, h2, h3, h4⟩ := hne
  cases kind <;> simp [isSentinel, h1, h2, h3, h4]

theorem RangeKind.isSentinel_of_quantity {kind : RangeKind} {s : String} {n : Nat} (h : Position.Quantity s n) :
    kind.isSentinel s = false := by
  obtain ⟨x, digits, hs, -⟩ := h
  exact isSentinel_of_mark hs

theorem RangeKind.isSentinel_of_parse? {kind : RangeKind} {s : String} {n : Nat} (h : Position.parse? s = some n) :
    kind.isSentinel s = false := by
  unfold Position.parse? at h
  split at h
  · exact isSentinel_of_mark ‹_›
  · exact isSentinel_of_mark ‹_›
  · cases h

namespace Tracker

theorem isUnset_of_parse? {t : Tracker} {n : Nat} (h : Position.parse? t.bound = some n) : t.isUnset = false := by
  unfold isUnset
  refine decide_eq_false fun hempty => ?_
  simp [hempty, Position.parse?] at h

@[simp] theorem kind_seed (t : Tracker) (bound : String) : (t.seed bound).kind = t.kind := rfl

@[simp] theorem bound_seed (t : Tracker) (bound : String) : (t.seed bound).bound = bound := rfl

@[simp] theorem kind_observe (t : Tracker) (position : Nat) : (t.observe position).kind = t.kind := by
  unfold observe
  split <;> rfl

@[simp] theorem kind_ensureStarted (t : Tracker) : t.ensureStarted.kind = t.kind := by
  unfold ensureStarted
  split <;> rfl

/-- **A number stays a number and never falls.** Noting an event moves a cursor that stands at a number to
the position after the event, if that is further on. -/
theorem parse?_bound_observe {t : Tracker} {c : Nat} (h : Position.parse? t.bound = some c) (position : Nat) :
    Position.parse? (t.observe position).bound = some (max c (Position.next position)) := by
  have hadv : t.advances position = decide (c < Position.next position) := by
    simp [advances, isSentinel, RangeKind.isSentinel_of_parse? h, h]
  unfold observe
  by_cases hlt : c < Position.next position
  · rw [hadv, if_pos (by simpa using hlt), bound_seed, Position.parse?_encode (Position.next_lt position)]
    rw [max_eq_right (Nat.le_of_lt hlt)]
  · rw [hadv, if_neg (by simpa using hlt), h, max_eq_left (not_lt.mp hlt)]

end Tracker
end OracleRelay
