/-
# Adapters of nodes that push

The adapter takes the notifications of its subscriber one after the other and hands on the events that each holds.
It does not look out for being told to stop while it waits for a notification: its subscriber does, and the
notifications end.

Key definitions: `Push.Listener`, `Push.Listener.absorb`, `Push.Listener.wait`, `Evm.pushSpec`, `Evm.pushedEvents`,
`Substrate.pushSpec`, `Substrate.pushedEvents`.
-/
import OracleRelay.Adapter.Loop
import OracleRelay.Evm.Log
import OracleRelay.Push.Session
import OracleRelay.Substrate.Request

namespace OracleRelay
namespace Push

namespace Listener

/-- Where a listener stands. -/
inductive Phase where
  | listening
  /-- with an event on offer and events after it -/
  | handing (event : ChainEvent) (rest : List ChainEvent)
  | closed
  deriving Inhabited

end Listener

/-- An adapter that listens to notifications. -/
structure Listener where
  /-- whether a notification has come -/
  seen : Bool := false
  phase : Listener.Phase := .listening
  deriving Inhabited

namespace Listener

/-- Hands on events; when none is left, the next notification is due. -/
def proceed (l : Listener) : List ChainEvent → Listener
  | [] => { l with phase := .listening }
  | event :: rest => { l with phase := .handing event rest }

/-- Takes in a notification, or that there will be none. -/
def absorb (read : Json → List ChainEvent) (l : Listener) : Option Json → Listener
  | some v => { l with seen := true }.proceed (read v)
  | none => { l with phase := .closed }

/-- The loop of a listener that reads the events in a notification in a given way. -/
def wait (read : Json → List ChainEvent) : Adapter.Loop Unit (fun _ => Option Json) Listener := fun l =>
  match l.phase with
  | .listening => .ask () .unheeded (l.absorb read)
  | .handing event rest => .offer event (l.proceed rest)
  | .closed => .ended

end Listener
end Push

namespace Evm

/-- The subscription to the logs of a job. -/
def pushSpec (flavor : Flavor) (jobId : String) (addresses : List String) :
    Except LogFilter.Conflict Push.Spec :=
  ((LogFilter.runlog flavor.rangeKind jobId (addresses.map flavor.normalizeAddress)).argument .scan).map
    fun argument => ⟨flavor.methods.subscribe, [.text "logs", argument], flavor.methods.unsubscribe⟩

/-- The name of the adapter. -/
def pushName (flavor : Flavor) : String := flavor.chain.tag ++ "/push"

/-- The events in a notification. -/
def pushedEvents (flavor : Flavor) (v : Json) : List ChainEvent :=
  match readPushed flavor v with
  | .ok (some event) => [.log event]
  | _ => []

end Evm

namespace Substrate

/-- The subscription to the events of blocks. -/
def pushSpec : Push.Spec := ⟨"state_subscribeStorage", [Json.texts [eventsKey]], "state_unsubscribeStorage"⟩

/-- The name of the adapter. -/
def pushName : String := "substrate/push"

/-- The call that tries the connection. -/
def headerCall : Rpc.Call := ⟨"chain_getHeader", []⟩

/-- The events in a notification. -/
def pushedEvents (w : Watch) (v : Json) : List ChainEvent := (w.requestsIn v).map .request

end Substrate
end OracleRelay
