/-
# Runs of an adapter

An adapter that is at work is told to stop or looks at what it waits for, in any order. What comes of it is
read off four moves: the adapter stays where it is (`Move.rests`), goes on at a beat (`Move.beats`), takes in
an answer (`Move.hears`), or hands an event to the sink (`Move.hands`). A fact about the state, the answers
that were taken in and the events that the sink took holds after every run if each of the last three moves
keeps it (`run_invariant`), so a loop is reasoned about by its waits alone.

Key definitions: `Adapter.Happening`, `Adapter.Exchange`, `Adapter.Running.run`, `Adapter.Running.exchanges`.
Key theorems: `Adapter.Running.meet_move`, `Adapter.Running.run_invariant`.
-/
import Mathlib.Data.List.Induction
import OracleRelay.Adapter.Loop

namespace OracleRelay
namespace Adapter

/-- What can happen to an adapter. -/
inductive Happening (Ask : Type) (Answer : Ask → Type) where
  | told
  | look (ready : Ready Ask Answer)

/-- A question, and the answer that an adapter took in. -/
structure Exchange (Ask : Type) (Answer : Ask → Type) where
  question : Ask
  answer : Answer question

namespace Running

variable {Ask : Type} {Answer : Ask → Type} {σ : Type}

/-- The adapter after something happened to it. -/
def meet (loop : Loop Ask Answer σ) (r : Running σ) : Happening Ask Answer → Running σ
  | .told => r.tell
  | .look ready => r.poll loop ready

/-- The adapter after all that happened to it, in order. -/
def run (loop : Loop Ask Answer σ) (r : Running σ) (hs : List (Happening Ask Answer)) : Running σ :=
  hs.foldl (meet loop) r

/-- The question that is answered by what happens. An answer is lost on an adapter that has ended, that
heeds being told to stop, or that has asked nothing. -/
def exchange? (loop : Loop Ask Answer σ) (r : Running σ) : Happening Ask Answer → Option (Exchange Ask Answer)
  | .look (.reply answer) =>
    match loop r.state with
    | .ask question guard _ =>
      if r.ended || (r.told && guard = .heeded) then none else some ⟨question, answer question⟩
    | _ => none
  | _ => none

/-- The questions that were answered in a run, in order. -/
def exchanges (loop : Loop Ask Answer σ) : Running σ → List (Happening Ask Answer) → List (Exchange Ask Answer)
  | _, [] => []
  | r, h :: hs => (r.exchange? loop h).toList ++ exchanges loop (r.meet loop h) hs

/-! ### Moves -/

/-- What may come of one happening, with the question that it answers. -/
inductive Move (loop : Loop Ask Answer σ) (r r' : Running σ) : Option (Exchange Ask Answer) → Prop where
  | rests (state : r'.state = r.state) (taken : r'.taken = r.taken) : Move loop r r' none
  | beats (next : σ) (wait : loop r.state = .tick next ∨ ∃ ms, loop r.state = .pause ms next)
      (untold : r.told = false) (after : r' = r.enter next) : Move loop r r' none
  | hears (question : Ask) (guard : Guard) (next : Answer question → σ) (answer : Answer question)
      (wait : loop r.state = .ask question guard next) (after : r' = r.enter (next answer)) :
      Move loop r r' (some ⟨question, answer⟩)
  | hands (event : ChainEvent) (next : σ) (wait : loop r.state = .offer event next) (untold : r.told = false)
      (after : r' = r.hand event next) : Move loop r r' none

variable (loop : Loop Ask Answer σ)

theorem exchange?_eq_none_of_not_ask {r : Running σ} (h : Happening Ask Answer)
    (hask : ∀ question guard next, loop r.state ≠ .ask question guard next) : r.exchange? loop h = none := by
  rcases h with _ | ready
  · rfl
  · cases ready with
    | reply answer =>
      unfold exchange?
      cases hw : loop r.state with
      | ask question guard next => exact absurd hw (hask question guard next)
      | _ => rfl
    | _ => rfl

theorem exchange?_eq_none_of_ended {r : Running σ} (h : Happening Ask Answer) (hr : r.ended = true) :
    r.exchange? loop h = none := by
  rcases h with _ | ready
  · rfl
  · cases ready <;> simp only [exchange?, hr, Bool.true_or, ↓reduceIte]
    split <;> rfl

/-- At a beat that it waits for, an adapter goes on, unless it was told to stop. -/
theorem move_of_beat {r : Running σ} {next : σ}
    (wait : loop r.state = .tick next ∨ ∃ ms, loop r.state = .pause ms next) (ready : Ready Ask Answer) : Move loop r
      (if r.told then r.finish else match ready with | .timer => r.enter next | _ => r) none := by
  by_cases htold : r.told = true
  · rw [if_pos htold]
    exact .rests rfl rfl
  · rw [if_neg htold]
    cases ready with
    | timer => exact .beats next wait (by simpa using htold) rfl
    | _ => exact .rests rfl rfl

/-- Whatever happens to an adapter, it makes one of the moves. -/
theorem meet_move (r : Running σ) (h : Happening Ask Answer) : Move loop r (r.meet loop h) (r.exchange? loop h) := by
  rcases h with _ | ready
  · exact .rests rfl rfl
  simp only [meet, poll]
  by_cases hended : r.ended = true
  · rw [exchange?_eq_none_of_ended loop _ hended, if_pos hended]
    exact .rests rfl rfl
  rw [if_neg hended]
  cases hw : loop r.state with
  | ended =>
    rw [exchange?_eq_none_of_not_ask loop _ (by simp [hw])]
    exact .rests rfl rfl
  | tick next =>
    rw [exchange?_eq_none_of_not_ask loop _ (by simp [hw])]
    exact move_of_beat loop (.inl hw) ready
  | pause ms next =>
    rw [exchange?_eq_none_of_not_ask loop _ (by simp [hw])]
    exact move_of_beat loop (.inr ⟨ms, hw⟩) ready
  | offer event next =>
    rw [exchange?_eq_none_of_not_ask loop _ (by simp [hw])]
    by_cases htold : r.told = true
    · simp only [htold, ↓reduceIte]
      exact .rests rfl rfl
    · simp only [htold, Bool.false_eq_true, ↓reduceIte]
      cases ready with
      | room => exact .hands event next hw (by simpa using htold) rfl
      | _ => exact .rests rfl rfl
  | ask question guard next =>
    by_cases hheed : (r.told && guard = .heeded) = true
    · cases ready <;> simp only [exchange?, hw, hheed, Bool.or_true, ↓reduceIte] <;> exact .rests rfl rfl
    · cases ready with
      | reply answer =>
        simp only [exchange?, hw, hheed, hended, Bool.or_self, Bool.false_eq_true, ↓reduceIte]
        exact .hears question guard next (answer question) hw rfl
      | _ =>
        simp only [exchange?, hheed, Bool.false_eq_true, ↓reduceIte]
        split <;> exact .rests rfl rfl

/-! ### The sink -/

/-- No look takes back that the adapter was told to stop. -/
theorem told_poll (r : Running σ) (ready : Ready Ask Answer) : (r.poll loop ready).told = r.told := by
  unfold poll
  repeat' split
  all_goals rfl

theorem told_meet {r : Running σ} (told : r.told = true) (h : Happening Ask Answer) : (r.meet loop h).told = true := by
  rcases h with _ | ready
  · rfl
  · exact (told_poll loop r ready).trans told

/-- A move leaves the sink, or hands it one event while the adapter was not told to stop. -/
theorem Move.taken_cases {r r' : Running σ} {x : Option (Exchange Ask Answer)} (h : Move loop r r' x) :
    r'.taken = r.taken ∨ r.told = false ∧ ∃ event, r'.taken = r.taken ++ [event] := by
  cases h with
  | rests _ taken => exact .inl taken
  | beats next _ _ after => exact .inl (by rw [after]; rfl)
  | hears question guard next answer _ after => exact .inl (by rw [after]; rfl)
  | hands event next _ untold after => exact .inr ⟨untold, event, by rw [after]; rfl⟩

/-- The event that an adapter has on offer. -/
def onOffer (r : Running σ) : Option ChainEvent :=
  match loop r.state with
  | .offer event _ => if r.ended || r.told then none else some event
  | _ => none

/-- A sink with room takes the event on offer. -/
theorem taken_poll_room {r : Running σ} {event : ChainEvent} (h : r.onOffer loop = some event) :
    (r.poll loop .room).taken = r.taken ++ [event] := by
  unfold onOffer at h
  split at h
  · rename_i offered next wait
    split at h
    · cases h
    · rename_i hat
      obtain rfl := Option.some.inj h
      obtain ⟨ended, untold⟩ := Bool.or_eq_false_iff.mp (Bool.not_eq_true _ ▸ hat)
      simp only [poll, ended, untold, wait, Bool.false_eq_true, ↓reduceIte]
      rfl
  · cases h

/-- What the sink has taken stays. -/
theorem taken_prefix_meet (r : Running σ) (h : Happening Ask Answer) : r.taken <+: (r.meet loop h).taken := by
  rcases (meet_move loop r h).taken_cases with hsame | ⟨-, event, hhand⟩
  · exact ⟨[], (List.append_nil _).trans hsame.symm⟩
  · exact ⟨[event], hhand.symm⟩

/-- An adapter that was told to stop hands no event to the sink. -/
theorem taken_meet_of_told {r : Running σ} (told : r.told = true) (h : Happening Ask Answer) :
    (r.meet loop h).taken = r.taken := by
  rcases (meet_move loop r h).taken_cases with hsame | ⟨untold, -⟩
  · exact hsame
  · rw [told] at untold
    cases untold

/-! ### Runs -/

theorem exchanges_append (r : Running σ) (hs hs' : List (Happening Ask Answer)) :
    r.exchanges loop (hs ++ hs') = r.exchanges loop hs ++ (r.run loop hs).exchanges loop hs' := by
  induction hs generalizing r with
  | nil => rfl
  | cons h hs ih => simp only [List.cons_append, exchanges, ih, List.append_assoc, run, List.foldl_cons]

theorem run_cons (r : Running σ) (h : Happening Ask Answer) (hs : List (Happening Ask Answer)) :
    r.run loop (h :: hs) = (r.meet loop h).run loop hs := rfl

theorem run_append (r : Running σ) (hs hs' : List (Happening Ask Answer)) :
    r.run loop (hs ++ hs') = (r.run loop hs).run loop hs' := List.foldl_append

/-- **What the moves keep, runs keep.** `P` speaks of the answers that were taken in, the state, and the
events that the sink took. -/
theorem run_invariant {P : List (Exchange Ask Answer) → σ → List ChainEvent → Prop} {r : Running σ}
    (start : P [] r.state r.taken)
    (beat : ∀ xs s taken next, P xs s taken → (loop s = .tick next ∨ ∃ ms, loop s = .pause ms next) →
      P xs next taken)
    (hear : ∀ xs s taken question guard next answer, P xs s taken → loop s = .ask question guard next →
      P (xs ++ [⟨question, answer⟩]) (next answer) taken)
    (hand : ∀ xs s taken event next, P xs s taken → loop s = .offer event next → P xs next (taken ++ [event]))
    (hs : List (Happening Ask Answer)) :
    P (r.exchanges loop hs) (r.run loop hs).state (r.run loop hs).taken := by
  induction hs using List.reverseRecOn with
  | nil => exact start
  | append_singleton hs h ih =>
    rw [exchanges_append, run_append]
    simp only [exchanges, List.append_nil]
    have hmove := meet_move loop (r.run loop hs) h
    show P _ ((r.run loop hs).meet loop h).state ((r.run loop hs).meet loop h).taken
    generalize (r.run loop hs).exchange? loop h = x at hmove ⊢
    cases hmove with
    | rests state taken =>
      rw [state, taken, Option.toList_none, List.append_nil]
      exact ih
    | beats next wait _ after =>
      rw [after, Option.toList_none, List.append_nil]
      exact beat _ _ _ next ih wait
    | hears question guard next answer wait after =>
      rw [after]
      exact hear _ _ _ question guard next answer ih wait
    | hands event next wait _ after =>
      rw [after, Option.toList_none, List.append_nil]
      exact hand _ _ _ event next ih wait

end Running
end Adapter
end OracleRelay
