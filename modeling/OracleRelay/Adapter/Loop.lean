/-
# The loop of an adapter

An adapter waits: for its clock, for an answer of the node, or for the sink to take an event. A loop says what
each of its states waits for and which state comes after it. An adapter that is told to stop ends at the first
wait that heeds it, and hands no event to the sink any more.

Key definitions: `Adapter.Wait`, `Adapter.Loop`, `Adapter.Running`, `Adapter.Running.poll`, `Adapter.Running.tell`.
-/
import OracleRelay.Request.Event

namespace OracleRelay
namespace Adapter

/-- When an adapter that was told to stop gives up a question. -/
inductive Guard where
  /-- it does not: it stays with the question until the answer is there -/
  | unheeded
  /-- it asks no more -/
  | heeded
  /-- it asks in the same breath in which it took the answer before, and gives up if it has to wait -/
  | inOneBreath
  deriving DecidableEq, Repr

/-- What a state waits for, and the state after it. -/
inductive Wait (Ask : Type) (Answer : Ask → Type) (σ : Type) where
  /-- the next beat of the clock -/
  | tick (next : σ)
  /-- some milliseconds -/
  | pause (ms : Nat) (next : σ)
  /-- the answer to a question -/
  | ask (question : Ask) (guard : Guard) (next : Answer question → σ)
  /-- the sink to take an event -/
  | offer (event : ChainEvent) (next : σ)
  /-- nothing: the loop has ended -/
  | ended

/-- A loop: what each state waits for. -/
abbrev Loop (Ask : Type) (Answer : Ask → Type) (σ : Type) : Type := σ → Wait Ask Answer σ

/-- What is ready when an adapter looks at what it waits for. -/
inductive Ready (Ask : Type) (Answer : Ask → Type) where
  | nothing
  | timer
  /-- the node has answered, whatever the question was -/
  | reply (answer : (question : Ask) → Answer question)
  /-- the sink has room -/
  | room
  /-- nobody takes events from the sink any more -/
  | deserted

/-- An adapter at work. -/
structure Running (σ : Type) where
  state : σ
  /-- whether the adapter was told to stop -/
  told : Bool := false
  /-- whether the loop has ended -/
  ended : Bool := false
  /-- what the sink has taken, in order -/
  taken : List ChainEvent := []

namespace Running

variable {Ask : Type} {Answer : Ask → Type} {σ : Type}

/-- Tells the adapter to stop. -/
def tell (r : Running σ) : Running σ := { r with told := true }

/-- The adapter at its end. -/
def finish (r : Running σ) : Running σ := { r with ended := true }

/-- The adapter in another state. -/
def enter (r : Running σ) (state : σ) : Running σ := { r with state }

/-- The adapter in another state, after the sink took an event. -/
def hand (r : Running σ) (event : ChainEvent) (state : σ) : Running σ :=
  { r with state, taken := r.taken ++ [event] }

/-- A look at what the adapter waits for. To be told to stop comes before all else. -/
def poll (loop : Loop Ask Answer σ) (r : Running σ) (ready : Ready Ask Answer) : Running σ :=
  if r.ended then r
  else
    match loop r.state with
    | .ended => r.finish
    | .tick next | .pause _ next =>
      if r.told then r.finish
      else match ready with
        | .timer => r.enter next
        | _ => r
    | .offer event next =>
      if r.told then r.finish
      else match ready with
        | .room => r.hand event next
        | .deserted => r.finish
        | _ => r
    | .ask question guard next =>
      if r.told && guard = .heeded then r.finish
      else match ready with
        | .reply answer => r.enter (next (answer question))
        | _ => if r.told && guard = .inOneBreath then r.finish else r

end Running
end Adapter
end OracleRelay
