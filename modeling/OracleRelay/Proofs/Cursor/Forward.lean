/-
# The cursor only moves forward

A poll notes events in whatever order the node lists them, and puts the tag of the tip where nothing stands.
A cursor that starts at a tag or at a number (`Tracker.Usable`) then stands at the largest of that number and of
the positions after the events (`Tracker.number?_run`): it never falls, and the order of the events does not
count. The text moves with the number: noting an event changes it exactly when the cursor says that it advanced
(`Tracker.advances_iff`).

Key definitions: `Tracker.number?`, `Tracker.Usable`, `Tracker.Turn`, `Tracker.run`, `Tracker.positions`.
Key theorems: `Tracker.number?_observe`, `Tracker.number?_run`, `Tracker.advances_iff`, `Tracker.forward_only`.
-/
import Mathlib.Data.List.MinMax
import OracleRelay.Proofs.Cursor.Position

namespace OracleRelay
namespace Tracker

/-- The number that a cursor stands at. -/
def number? (t : Tracker) : Option Nat := Position.parse? t.bound

/-- Events move the cursor: it is unset, at a tag of the tip, or at a number. -/
def Usable (t : Tracker) : Prop := t.isSentinel = true ∨ ∃ c, t.number? = some c

theorem number?_seed_encode {n : Nat} (hn : n < Position.bound) (t : Tracker) :
    (t.seed (Position.encode n)).number? = some n :=
  Position.parse?_encode hn

theorem number?_of_isSentinel {t : Tracker} (h : t.isSentinel = true) : t.number? = none := by
  cases hc : t.number? with
  | none => rfl
  | some c =>
    have hnot : t.isSentinel = false := RangeKind.isSentinel_of_parse? hc
    rw [h] at hnot
    cases hnot

/-- An event moves a cursor at a tag, and one at a number that lies before the position after the event. -/
theorem advances_of_usable {t : Tracker} (h : t.Usable) (position : Nat) :
    t.advances position = true ↔ ∀ c, t.number? = some c → c < Position.next position := by
  rcases h with hs | ⟨c, hc⟩
  · have hadv : t.advances position = true := by simp [advances, hs]
    simp [hadv, number?_of_isSentinel hs]
  · have hs : t.isSentinel = false := RangeKind.isSentinel_of_parse? hc
    have hp : Position.parse? t.bound = some c := hc
    simp [advances, hs, hp, hc]

/-- **One event.** The cursor then stands at the position after the event, or where it stood, whichever is
further on. -/
theorem number?_observe {t : Tracker} (h : t.Usable) (position : Nat) :
    (t.observe position).number? = some (max (t.number?.getD 0) (Position.next position)) := by
  rcases h with hs | ⟨c, hc⟩
  · have hadv : t.advances position = true := by simp [advances, hs]
    have hnone := number?_of_isSentinel hs
    rw [observe, if_pos hadv, number?_seed_encode (Position.next_lt position), hnone]
    simp
  · rw [hc]
    exact parse?_bound_observe hc position

/-- **A cursor says that it advanced exactly when its text has changed.** -/
theorem advances_iff (t : Tracker) (position : Nat) :
    t.advances position = true ↔ (t.observe position).bound ≠ t.bound := by
  have hmoved : (t.seed (Position.encode (Position.next position))).number? = some (Position.next position) :=
    number?_seed_encode (Position.next_lt position) t
  constructor
  · intro hadv hsame
    rw [observe, if_pos hadv] at hsame
    -- the text that was there would read as the position after the event, and then nothing moves the cursor
    have hc : t.number? = some (Position.next position) := by
      rw [← hmoved]
      exact congrArg Position.parse? hsame.symm
    have hlt := (advances_of_usable (.inr ⟨_, hc⟩) position).mp hadv _ hc
    exact absurd hlt (lt_irrefl _)
  · intro hchanged
    by_contra hstays
    exact hchanged (by rw [observe, if_neg hstays])

theorem bound_observe_of_le {t : Tracker} {c : Nat} (hc : t.number? = some c) {position : Nat}
    (hle : Position.next position ≤ c) : (t.observe position).bound = t.bound := by
  have hstays : ¬ t.advances position = true := fun hadv =>
    absurd ((advances_of_usable (.inr ⟨c, hc⟩) position).mp hadv c hc) (not_lt.mpr hle)
  rw [observe, if_neg hstays]

theorem ensureStarted_of_number? {t : Tracker} {c : Nat} (hc : t.number? = some c) : t.ensureStarted = t := by
  have hset := isUnset_of_parse? hc
  simp [ensureStarted, hset]

theorem isSentinel_ensureStarted {t : Tracker} (h : t.isSentinel = true) : t.ensureStarted.isSentinel = true := by
  unfold ensureStarted
  split
  · cases hkind : t.kind <;> simp [isSentinel, RangeKind.isSentinel, RangeKind.latest, hkind]
  · exact h

/-- The tag of the tip is no number, and is put where none stands. -/
theorem number?_ensureStarted {t : Tracker} (h : t.Usable) : t.ensureStarted.number? = t.number? := by
  rcases h with hs | ⟨c, hc⟩
  · rw [number?_of_isSentinel hs, number?_of_isSentinel (isSentinel_ensureStarted hs)]
  · rw [ensureStarted_of_number? hc]

/-! ### Runs -/

/-- What is done to a cursor. -/
inductive Turn where
  | observe (position : Nat)
  | ensureStarted
  deriving DecidableEq, Repr

/-- The cursor after one turn. -/
def turn (t : Tracker) : Turn → Tracker
  | .observe position => t.observe position
  | .ensureStarted => t.ensureStarted

/-- The cursor after some turns, in order. -/
def run (t : Tracker) (turns : List Turn) : Tracker := turns.foldl turn t

/-- The positions of the events that are noted, in order. -/
def positions : List Turn → List Nat
  | [] => []
  | .observe position :: rest => position :: positions rest
  | .ensureStarted :: rest => positions rest

theorem run_cons (t : Tracker) (turn : Turn) (turns : List Turn) : t.run (turn :: turns) = (t.turn turn).run turns :=
  rfl

theorem run_append (t : Tracker) (turns turns' : List Turn) :
    t.run (turns ++ turns') = (t.run turns).run turns' := List.foldl_append

theorem Usable.turn {t : Tracker} (h : t.Usable) (turn : Turn) : (t.turn turn).Usable := by
  cases turn with
  | observe position => exact .inr ⟨_, number?_observe h position⟩
  | ensureStarted =>
    rcases h with hs | ⟨c, hc⟩
    · exact .inl (isSentinel_ensureStarted hs)
    · refine .inr ⟨c, ?_⟩
      rw [Tracker.turn, ensureStarted_of_number? hc, hc]

theorem Usable.run {t : Tracker} (h : t.Usable) (turns : List Turn) : (t.run turns).Usable := by
  induction turns generalizing t with
  | nil => exact h
  | cons turn turns ih => exact ih (h.turn turn)

/-- **A cursor stands at the largest of the number that it started at and the positions after the events.** -/
theorem number?_run {t : Tracker} (h : t.Usable) (turns : List Turn) :
    (t.run turns).number? = (t.number?.toList ++ (positions turns).map Position.next).max? := by
  induction turns generalizing t with
  | nil => cases hc : t.number? <;> simp [run, positions, hc]
  | cons turn turns ih =>
    rw [run_cons, ih (h.turn turn)]
    cases turn with
    | observe position =>
      rw [Tracker.turn, number?_observe h, positions]
      cases hc : t.number? with
      | none => simp
      | some c =>
        simp only [Option.getD_some, Option.toList_some, List.cons_append, List.nil_append, List.map_cons,
          List.max?_cons', List.foldl_cons]
    | ensureStarted => rw [Tracker.turn, number?_ensureStarted h, positions]

theorem number?_le_run {t : Tracker} {c : Nat} (hc : t.number? = some c) (turns : List Turn) :
    ∃ d, (t.run turns).number? = some d ∧ c ≤ d := by
  have hmax := number?_run (.inr ⟨c, hc⟩) turns
  have hmem : c ∈ t.number?.toList ++ (positions turns).map Position.next := by simp [hc]
  obtain ⟨d, hd⟩ := Option.isSome_iff_exists.mp (List.isSome_max?_of_mem hmem)
  exact ⟨d, hmax.trans hd, (List.max?_eq_some_iff.mp hd).2 c hmem⟩

/-- The largest of some numbers does not depend on their order. -/
theorem max?_of_perm {ns ns' : List Nat} (h : ns.Perm ns') : ns.max? = ns'.max? := by
  refine Option.ext fun n => ?_
  rw [List.max?_eq_some_iff, List.max?_eq_some_iff, h.mem_iff]
  simp only [h.mem_iff]

theorem bound_run_of_le {t : Tracker} {c : Nat} (hc : t.number? = some c) {turns : List Turn}
    (hle : ∀ position ∈ positions turns, Position.next position ≤ c) : (t.run turns).bound = t.bound := by
  induction turns generalizing t with
  | nil => rfl
  | cons turn turns ih =>
    rw [run_cons]
    cases turn with
    | observe position =>
      have hsame : (t.observe position).bound = t.bound := bound_observe_of_le hc (hle position List.mem_cons_self)
      have hc' : (t.observe position).number? = some c := (congrArg Position.parse? hsame).trans hc
      exact (ih hc' fun p hp => hle p (List.mem_cons_of_mem _ hp)).trans hsame
    | ensureStarted =>
      rw [Tracker.turn, ensureStarted_of_number? hc]
      exact ih hc hle

/-- **Forward only, in any order.** Whatever is noted of events and however often the cursor is started in
between: a number never falls; at the end stands the largest of the number at the start and the positions after
the events, whatever their order; each event moves the cursor exactly when the cursor says so; and events that
lie before the number leave its text as it was. -/
theorem forward_only {t : Tracker} (usable : t.Usable) (turns : List Turn) :
    (∀ before after, turns = before ++ after → ∀ c, (t.run before).number? = some c →
      ∃ d, (t.run turns).number? = some d ∧ c ≤ d) ∧
    (t.run turns).number? = (t.number?.toList ++ (positions turns).map Position.next).max? ∧
    (∀ turns', (positions turns').Perm (positions turns) → (t.run turns').number? = (t.run turns).number?) ∧
    (∀ before position after, turns = before ++ .observe position :: after →
      ((t.run before).advances position = true ↔
        (t.run (before ++ [.observe position])).bound ≠ (t.run before).bound)) ∧
    (∀ c, t.number? = some c → (∀ position ∈ positions turns, Position.next position ≤ c) →
      (t.run turns).bound = t.bound) := by
  refine ⟨?_, number?_run usable turns, ?_, ?_, fun c hc hle => bound_run_of_le hc hle⟩
  · rintro before after rfl c hc
    rw [run_append]
    exact number?_le_run hc after
  · intro turns' hperm
    rw [number?_run usable, number?_run usable]
    exact max?_of_perm ((hperm.map _).append_left _)
  · intro before position after _
    rw [run_append]
    exact advances_iff (t.run before) position

/-- A cursor at `0X0a`, with an event before it, one behind it, one between the two, and the last position. -/
theorem forward_only_mixedCase :
    let t : Tracker := ⟨.epoch, "0X0a"⟩
    (t.run [.observe 9, .ensureStarted]).bound = "0X0a" ∧
      (t.run [.observe 9, .ensureStarted, .observe 31, .observe 20]).number? = some 32 ∧
      (t.run [.observe 0xFFFFFFFFFFFFFFFF, .observe 31]).number? = some 0xFFFFFFFFFFFFFFFF := by
  intro t
  have usable : t.Usable := .inr ⟨10, by decide⟩
  have start : t.number? = some 10 := by decide
  obtain ⟨-, -, -, -, stays⟩ := forward_only usable [.observe 9, .ensureStarted]
  obtain ⟨-, largest, -⟩ := forward_only usable [.observe 9, .ensureStarted, .observe 31, .observe 20]
  obtain ⟨-, last, -⟩ := forward_only usable [.observe 0xFFFFFFFFFFFFFFFF, .observe 31]
  refine ⟨stays 10 start (by decide), largest.trans ?_, last.trans ?_⟩ <;> rw [start] <;> rfl

end Tracker
end OracleRelay
