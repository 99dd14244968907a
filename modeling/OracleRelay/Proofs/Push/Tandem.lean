/-
# A subscriber and its listener

A subscriber hands its results into a buffer, and a listener takes them out of it, one after the other, and offers
their events to the sink. The shutdown fires for both at once, but the listener sees it only while it has an event on
offer: while it waits for a result it depends on its subscriber, which ends, so that after the results in the buffer
none is left. A listener that ends by itself has its subscriber stopped.

Key definitions: `Push.Outlet`, `Push.Tandem`, `Push.Tandem.ready`, `Push.Tandem.turn`.
Key theorems: `Push.Tandem.taken_turn_room`, `Push.Tandem.taken_prefix_turn`, `Push.Tandem.taken_turn_of_told`.
-/
import OracleRelay.Proofs.Adapter.Run
import OracleRelay.Proofs.Push.Reconnecting
import OracleRelay.Push.Listener

namespace OracleRelay
namespace Push

/-- What a listener finds at the sink. -/
inductive Outlet where
  | full
  | room
  /-- nobody takes events from the sink any more -/
  | deserted

/-- What is ready for a listener that has an event on offer. -/
def Outlet.ready : Outlet → Adapter.Ready Unit fun _ => Option Json
  | .full => .nothing
  | .room => .room
  | .deserted => .deserted

/-- A subscriber and its listener, with a buffer in between. -/
structure Tandem where
  course : Course
  listener : Adapter.Running Listener := { state := {} }
  /-- how many results the buffer holds -/
  capacity : Nat
  /-- how many results the listener has taken out of it -/
  received : Nat := 0
  /-- whether the subscriber was stopped by the listener -/
  aborted : Bool := false

namespace Tandem

/-- What can come next. -/
inductive Turn where
  /-- the shutdown fires -/
  | told
  | passes (time : Nat)
  /-- the subscriber looks at what it waits for -/
  | subscriber (sight : Sight)
  /-- the listener looks at what it waits for -/
  | listener (outlet : Outlet)

/-- The next result in the buffer. -/
def next? (t : Tandem) : Option Json := t.course.subscriber.handed[t.received]?

/-- There is no room in a full buffer. -/
def sighted (t : Tandem) : Sight → Sight
  | .room => if t.course.subscriber.handed.length < t.received + t.capacity then .room else .nothing
  | sight => sight

/-- Whether the listener waits for a result. -/
def isListening (t : Tandem) : Bool :=
  match t.listener.state.phase with
  | .listening => !t.listener.ended
  | _ => false

/-- What is ready for the listener. Once its subscriber has ended, an empty buffer stays empty. -/
def ready (t : Tandem) (outlet : Outlet) : Adapter.Ready Unit fun _ => Option Json :=
  if t.isListening then
    match t.next? with
    | some result => .reply fun _ => some result
    | none => if t.course.subscriber.isOver then .reply fun _ => none else .nothing
  else outlet.ready

variable (read : Json → List ChainEvent)

/-- A look at what the listener waits for. -/
def listen (t : Tandem) (outlet : Outlet) : Tandem :=
  let listener := t.listener.poll (Listener.wait read) (t.ready outlet)
  { t with
    listener
    received := if t.isListening && t.next?.isSome then t.received + 1 else t.received
    aborted := t.aborted || (listener.ended && !listener.told) }

/-- The two after a turn. -/
def turn (t : Tandem) : Turn → Tandem
  | .told => { t with course := t.course.turn .told, listener := t.listener.tell }
  | .passes time => { t with course := t.course.turn (.passes time) }
  | .subscriber sight => if t.aborted then t else { t with course := t.course.look (t.sighted sight) }
  | .listener outlet => t.listen read outlet

/-- The event that the listener has on offer. -/
def onOffer (t : Tandem) : Option ChainEvent := t.listener.onOffer (Listener.wait read)

/-- What the sink has taken. -/
def taken (t : Tandem) : List ChainEvent := t.listener.taken

/-! ### The sink -/

/-- Whatever the turn is, one thing happens to the listener or none. -/
theorem listener_turn (t : Tandem) (u : Turn) : (t.turn read u).listener = t.listener ∨
    ∃ h, (t.turn read u).listener = t.listener.meet (Listener.wait read) h := by
  cases u with
  | told => exact .inr ⟨.told, rfl⟩
  | passes time => exact .inl rfl
  | subscriber sight =>
    refine .inl ?_
    change (if t.aborted then t else { t with course := t.course.look (t.sighted sight) }).listener = t.listener
    split <;> rfl
  | listener outlet => exact .inr ⟨.look (t.ready outlet), rfl⟩

theorem taken_prefix_turn (t : Tandem) (u : Turn) : t.taken <+: (t.turn read u).taken := by
  unfold taken
  rcases t.listener_turn read u with hsame | ⟨h, hmeet⟩
  · exact ⟨[], (List.append_nil _).trans (congrArg (·.taken) hsame.symm)⟩
  · rw [hmeet]
    exact Adapter.Running.taken_prefix_meet (Listener.wait read) t.listener h

theorem told_turn {t : Tandem} (told : t.listener.told = true) (u : Turn) : (t.turn read u).listener.told = true := by
  rcases t.listener_turn read u with hsame | ⟨h, hmeet⟩
  · rw [hsame]
    exact told
  · rw [hmeet]
    exact Adapter.Running.told_meet (Listener.wait read) told h

/-- A listener that has an event on offer looks at the sink, not at the buffer. -/
theorem ready_of_onOffer {t : Tandem} {event : ChainEvent} (h : t.onOffer read = some event) (outlet : Outlet) :
    t.ready outlet = outlet.ready := by
  have hbusy : t.isListening = false := by
    unfold onOffer Adapter.Running.onOffer Listener.wait at h
    unfold isListening
    cases hphase : t.listener.state.phase with
    | listening =>
      rw [hphase] at h
      cases h
    | _ => rfl
  unfold ready
  rw [hbusy]
  rfl

/-- A sink with room takes the event on offer. -/
theorem taken_turn_room {t : Tandem} {event : ChainEvent} (h : t.onOffer read = some event) :
    (t.turn read (.listener .room)).taken = t.taken ++ [event] := by
  change (t.listener.poll (Listener.wait read) (t.ready .room)).taken = _
  rw [ready_of_onOffer read h]
  exact Adapter.Running.taken_poll_room (Listener.wait read) h

/-- After the shutdown no event gets into the sink, not even one of a result that was in the buffer. -/
theorem taken_turn_of_told {t : Tandem} (told : t.listener.told = true) (u : Turn) :
    (t.turn read u).taken = t.taken := by
  unfold taken
  rcases t.listener_turn read u with hsame | ⟨h, hmeet⟩
  · rw [hsame]
  · rw [hmeet]
    exact Adapter.Running.taken_meet_of_told (Listener.wait read) told h

end Tandem
end Push
end OracleRelay
