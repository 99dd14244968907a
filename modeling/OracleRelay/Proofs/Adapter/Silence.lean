/-
# Silence after the shutdown

An adapter fills a sink, step by step, until it is told to stop: up to then a sink with room takes the event on offer,
and from then on it takes none. What it has taken stays. So wherever the shutdown comes in a run, the sink is left with
what it held at that moment, which is a prefix of what it would have held later (`Feeder.fallsSilent`). The adapters
that poll, follow or scan a node are loops, and all their events go through one kind of wait; an adapter of a node that
pushes is a listener together with its subscriber.

Key definitions: `Adapter.Feeder`, `Adapter.Feeder.FallsSilent`, `Adapter.feederOf`, `Push.Tandem.feeder`.
Key theorems: `Adapter.Feeder.fallsSilent`, `Adapter.fallsSilent_loop`, `Push.Tandem.fallsSilent`,
`Adapter.silent_after_shutdown`.
-/
import OracleRelay.Evm.Poll
import OracleRelay.Ontology.Scan
import OracleRelay.Proofs.Push.Tandem
import OracleRelay.Tezos.Monitor

namespace OracleRelay
namespace Adapter

/-- Something that fills a sink until it is told to stop. -/
structure Feeder (σ ε : Type) where
  step : σ → ε → σ
  /-- the shutdown fires -/
  tells : ε
  /-- it looks at the sink, which has room -/
  room : ε
  onOffer : σ → Option ChainEvent
  /-- what the sink has taken -/
  sink : σ → List ChainEvent

namespace Feeder

variable {σ ε : Type} (f : Feeder σ ε)

/-- All that happens, in order. -/
def run (s : σ) (es : List ε) : σ := es.foldl f.step s

/-- Until the shutdown a sink with room takes what is on offer. After it the sink takes nothing, wherever it comes in a
run, and is left with a prefix of what it would have taken in any other course of things from there on. -/
structure FallsSilent : Prop where
  feeds : ∀ s event, f.onOffer s = some event → f.sink (f.step s f.room) = f.sink s ++ [event]
  silent : ∀ start before after, f.sink (f.run start (before ++ f.tells :: after)) = f.sink (f.run start before)
  cutsOff : ∀ start before after other,
    f.sink (f.run start (before ++ f.tells :: after)) <+: f.sink (f.run start (before ++ other))

theorem run_append (s : σ) (es es' : List ε) : f.run s (es ++ es') = f.run (f.run s es) es' := List.foldl_append

variable {f}

theorem sink_prefix_run (grows : ∀ s e, f.sink s <+: f.sink (f.step s e)) (s : σ) (es : List ε) :
    f.sink s <+: f.sink (f.run s es) := by
  induction es generalizing s with
  | nil => exact List.prefix_rfl
  | cons e es ih => exact (grows s e).trans (ih (f.step s e))

theorem sink_run_of_told {told : σ → Prop}
    (keeps : ∀ s e, told s → told (f.step s e) ∧ f.sink (f.step s e) = f.sink s) {s : σ} (h : told s) (es : List ε) :
    f.sink (f.run s es) = f.sink s := by
  induction es generalizing s with
  | nil => rfl
  | cons e es ih =>
    obtain ⟨hnext, hsink⟩ := keeps s e h
    exact (ih hnext).trans hsink

/-- A sink that only grows, and that being told to stop closes for good, falls silent. -/
theorem fallsSilent (feeds : ∀ s event, f.onOffer s = some event → f.sink (f.step s f.room) = f.sink s ++ [event])
    (told : σ → Prop) (tells : ∀ s, told (f.step s f.tells) ∧ f.sink (f.step s f.tells) = f.sink s)
    (keeps : ∀ s e, told s → told (f.step s e) ∧ f.sink (f.step s e) = f.sink s)
    (grows : ∀ s e, f.sink s <+: f.sink (f.step s e)) : f.FallsSilent := by
  have hsilent : ∀ start before after,
      f.sink (f.run start (before ++ f.tells :: after)) = f.sink (f.run start before) := by
    intro start before after
    obtain ⟨htold, hsink⟩ := tells (f.run start before)
    rw [run_append]
    exact (sink_run_of_told keeps htold after).trans hsink
  refine ⟨feeds, hsilent, ?_⟩
  intro start before after other
  rw [hsilent, run_append]
  exact sink_prefix_run grows (f.run start before) other

end Feeder

section Loops

variable {Ask : Type} {Answer : Ask → Type} {σ : Type} (loop : Loop Ask Answer σ)

/-- An adapter with its loop. -/
def feederOf : Feeder (Running σ) (Happening Ask Answer) where
  step := Running.meet loop
  tells := .told
  room := .look .room
  onOffer := Running.onOffer loop
  sink := Running.taken

theorem fallsSilent_loop : (feederOf loop).FallsSilent := by
  refine Feeder.fallsSilent ?_ (fun r => r.told = true) ?_ ?_ ?_
  · intro r event h
    exact Running.taken_poll_room loop h
  · intro r
    exact ⟨rfl, rfl⟩
  · intro r h told
    exact ⟨Running.told_meet loop told h, Running.taken_meet_of_told loop told h⟩
  · intro r h
    exact Running.taken_prefix_meet loop r h

end Loops

end Adapter

namespace Push

/-- A listener with its subscriber. -/
def Tandem.feeder (read : Json → List ChainEvent) : Adapter.Feeder Tandem Tandem.Turn where
  step := Tandem.turn read
  tells := .told
  room := .listener .room
  onOffer := Tandem.onOffer read
  sink := Tandem.taken

theorem Tandem.fallsSilent (read : Json → List ChainEvent) : (Tandem.feeder read).FallsSilent := by
  refine Adapter.Feeder.fallsSilent ?_ (fun t => t.listener.told = true) ?_ ?_ ?_
  · intro t event h
    exact Tandem.taken_turn_room read h
  · intro t
    exact ⟨rfl, rfl⟩
  · intro t u told
    exact ⟨Tandem.told_turn read told u, Tandem.taken_turn_of_told read told u⟩
  · intro t u
    exact Tandem.taken_prefix_turn read t u

/-- The node names the subscription and sends a notification, and the listener hands on the first event in it. -/
def Tandem.sampleTurns : List Tandem.Turn :=
  [.subscriber .opened, .subscriber (.frame (.text "\x7b\"jsonrpc\":\"2.0\",\"id\":1,\"result\":7\x7d")),
    .subscriber (.frame (.text "\x7b\"method\":\"m\",\"params\":\x7b\"subscription\":7,\"result\":0\x7d\x7d")),
    .subscriber .room, .listener .full, .listener .room]

/-- The shutdown fires in the middle of a notification with two events. -/
example (event : ChainEvent) :
    let feeder := Tandem.feeder fun _ => [event, event]
    let start : Tandem := { course := Course.opening Substrate.pushSpec {} 1, capacity := 1 }
    (feeder.run start (Tandem.sampleTurns ++ [.listener .room])).taken = [event, event] ∧
      (feeder.run start (Tandem.sampleTurns ++ [.told, .listener .room])).taken = [event] := by
  constructor <;> cbv

end Push

namespace Adapter

/-- **Silence after the shutdown.** Whatever the adapter, wherever it stands and whatever comes: up to the shutdown a
sink with room takes the event on offer, from the moment at which it fires the sink takes no event, and what it has
taken by then is a prefix of what it would have taken without the shutdown. -/
theorem silent_after_shutdown (flavor : Evm.Flavor) (watch : Substrate.Watch) :
    (Push.Tandem.feeder (Evm.pushedEvents flavor)).FallsSilent ∧ (feederOf Evm.Poller.wait).FallsSilent ∧
      (Push.Tandem.feeder (Substrate.pushedEvents watch)).FallsSilent ∧ (feederOf Tezos.Monitor.wait).FallsSilent ∧
      (feederOf Ontology.Scanner.wait).FallsSilent :=
  ⟨Push.Tandem.fallsSilent _, fallsSilent_loop _, Push.Tandem.fallsSilent _, fallsSilent_loop _, fallsSilent_loop _⟩

end Adapter
end OracleRelay
