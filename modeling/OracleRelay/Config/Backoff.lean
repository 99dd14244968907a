/-
# Waiting before a new connection

The wait grows by one step with each attempt, up to a number of attempts from which on it stays the same.

Key definitions: `Backoff`, `Backoff.delayIn?`, `Backoff.delay?`.
Key theorems: `Backoff.delayIn?_eq_some_iff`, `Backoff.delayIn?_eq_none_iff`.
-/
import OracleRelay.Json.Record

namespace OracleRelay

/-- The waits between attempts to connect, in seconds. -/
structure Backoff where
  step : Nat := 2
  /-- from this attempt on the wait is the ceiling -/
  rampAttempts : Nat := 5
  ceiling : Nat := 10
  deriving DecidableEq, Repr, Inhabited

namespace Backoff

/-- The wait before an attempt, counted from one, where the waits are given in a unit of which so many are a second.
There is none where it is longer than 64 bits of seconds. -/
def delayIn? (second : Nat) (b : Backoff) (attempt : Nat) : Option Nat :=
  if attempt < b.rampAttempts then
    let wait := b.step * max attempt 1
    if wait < second * 0x10000000000000000 then some wait else none
  else some b.ceiling

section

variable {b : Backoff} {second attempt : Nat}

/-- While the waits grow, the wait is one step for each attempt, and one step at least. -/
theorem delayIn?_of_lt (ramps : attempt < b.rampAttempts)
    (fits : b.step * max attempt 1 < second * 0x10000000000000000) :
    b.delayIn? second attempt = some (b.step * max attempt 1) := by
  unfold delayIn?
  rw [if_pos ramps]
  exact if_pos fits

/-- A wait that is too long is none. -/
theorem delayIn?_of_long (ramps : attempt < b.rampAttempts)
    (long : second * 0x10000000000000000 ≤ b.step * max attempt 1) : b.delayIn? second attempt = none := by
  unfold delayIn?
  rw [if_pos ramps]
  exact if_neg (Nat.not_lt_of_le long)

/-- After that it is the ceiling. -/
theorem delayIn?_of_le (flat : b.rampAttempts ≤ attempt) : b.delayIn? second attempt = some b.ceiling := by
  unfold delayIn?
  exact if_neg (Nat.not_lt_of_le flat)

/-- **The wait before an attempt.** -/
theorem delayIn?_eq_some_iff {wait : Nat} : b.delayIn? second attempt = some wait ↔
    (attempt < b.rampAttempts ∧ b.step * max attempt 1 < second * 0x10000000000000000 ∧
      wait = b.step * max attempt 1) ∨ (b.rampAttempts ≤ attempt ∧ wait = b.ceiling) := by
  rcases Nat.lt_or_ge attempt b.rampAttempts with ramps | flat
  · have rises : ¬ b.rampAttempts ≤ attempt := Nat.not_le_of_lt ramps
    rcases Nat.lt_or_ge (b.step * max attempt 1) (second * 0x10000000000000000) with fits | long
    · rw [delayIn?_of_lt ramps fits]
      simp [ramps, fits, rises, eq_comm]
    · rw [delayIn?_of_long ramps long]
      simp [rises, Nat.not_lt_of_le long]
  · rw [delayIn?_of_le flat]
    simp [flat, Nat.not_lt_of_le flat, eq_comm]

/-- There is a wait before each attempt, but for those that would be too long while the waits grow. -/
theorem delayIn?_eq_none_iff : b.delayIn? second attempt = none ↔
    attempt < b.rampAttempts ∧ second * 0x10000000000000000 ≤ b.step * max attempt 1 := by
  refine ⟨fun none => ?_, fun ⟨ramps, long⟩ => delayIn?_of_long ramps long⟩
  rcases Nat.lt_or_ge attempt b.rampAttempts with ramps | flat
  · refine ⟨ramps, Nat.le_of_not_lt fun fits => ?_⟩
    rw [delayIn?_of_lt ramps fits] at none
    cases none
  · rw [delayIn?_of_le flat] at none
    cases none

end

/-- The wait before an attempt in seconds. -/
def delay? (b : Backoff) (attempt : Nat) : Option Nat := b.delayIn? 1 attempt

/-- Reads the waits. -/
def reader : Json.Reader Backoff := fun depth t => do
  let r ← Json.Record.read? ["step", "ramp_attempts", "ceiling"] depth t
  return {
    step := ← r.withDefault "step" (Json.Tree.nat? 64) 2
    rampAttempts := ← r.withDefault "ramp_attempts" (Json.Tree.nat? 32) 5
    ceiling := ← r.withDefault "ceiling" (Json.Tree.nat? 64) 10 }

/-- The waits as a value. -/
def toJson (b : Backoff) : Json := .object
  [("step", .nat b.step), ("ramp_attempts", .nat b.rampAttempts), ("ceiling", .nat b.ceiling)]

end Backoff
end OracleRelay
