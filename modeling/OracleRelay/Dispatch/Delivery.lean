/-
# Deliveries

Each request is delivered to the job node by itself: it is sent, and sent again after a rest when the attempt failed
in a way that is worth another one, for a limited number of attempts. A request that was not delivered in the end is
dropped. The dispatcher counts what was delivered and what was dropped.

Key definitions: `Delivery`, `Delivery.answered`, `Dispatcher`, `Dispatcher.Step`, `Dispatcher.step`.
-/
import OracleRelay.Request.Fields
import OracleRelay.Trigger.Fault

namespace OracleRelay

/-- Where a delivery stands. -/
inductive Delivery.Phase where
  /-- before an attempt -/
  | due
  /-- with an attempt at the job node -/
  | calling
  /-- between a failed attempt and the next one -/
  | resting
  | delivered
  | dropped
  deriving DecidableEq, Repr, Inhabited

/-- The delivery of one request. -/
structure Delivery where
  jobId : String
  /-- the request as it is sent -/
  body : String
  /-- the attempts so far -/
  attempts : Nat := 0
  phase : Delivery.Phase := .due
  deriving DecidableEq, Repr, Inhabited

namespace Delivery

/-- Whether the delivery has come to its end. -/
def isOver (d : Delivery) : Bool := d.phase = .delivered || d.phase = .dropped

/-- Begins an attempt. -/
def called (d : Delivery) : Delivery := { d with attempts := d.attempts + 1, phase := .calling }

/-- Takes in how an attempt went, when so many attempts are allowed. There is always one attempt. -/
def answered (limit : Nat) (d : Delivery) : Except TriggerFault Unit → Delivery
  | .ok () => { d with phase := .delivered }
  | .error fault =>
    if fault.isRetryable && d.attempts < max 1 limit then { d with phase := .resting }
    else { d with phase := .dropped }

/-- Ends a rest. -/
def rested (d : Delivery) : Delivery := { d with phase := .due }

end Delivery

/-- An attempt: which delivery it belongs to, and what is sent for which job. -/
structure TriggerCall where
  delivery : Nat
  jobId : String
  body : String
  deriving DecidableEq, Repr, Inhabited

/-- The deliveries in the order in which they were begun, and what became of them. -/
structure Dispatcher where
  /-- attempts for one request -/
  limit : Nat := 3
  deliveries : List Delivery := []
  delivered : Nat := 0
  failed : Nat := 0
  /-- all attempts so far -/
  calls : List TriggerCall := []
  deriving DecidableEq, Repr, Inhabited

namespace Dispatcher

/-- What can happen. Deliveries are named by their place. -/
inductive Step where
  /-- a request is handed over -/
  | send (jobId : String) (request : Fields)
  /-- a delivery that is due makes its attempt -/
  | call (delivery : Nat)
  /-- the job node has answered the attempt of a delivery, or failed to -/
  | answer (delivery : Nat) (outcome : Except TriggerFault Unit)
  /-- a delivery has rested -/
  | wake (delivery : Nat)

/-- The number of the next delivery. -/
def next (d : Dispatcher) : Nat := d.deliveries.length

/-- Puts a delivery in its place. -/
def put (d : Dispatcher) (i : Nat) (delivery : Delivery) : Dispatcher :=
  { d with deliveries := d.deliveries.set i delivery }

/-- Counts a delivery that has come to its end. -/
def count (d : Dispatcher) (delivery : Delivery) : Dispatcher :=
  match delivery.phase with
  | .delivered => { d with delivered := d.delivered + 1 }
  | .dropped => { d with failed := d.failed + 1 }
  | _ => d

/-- One step. A step that does not fit where its delivery stands changes nothing. -/
def step (d : Dispatcher) : Step → Dispatcher
  | .send jobId request => { d with deliveries := d.deliveries ++ [{ jobId, body := request.body }] }
  | .call i =>
    match d.deliveries[i]? with
    | some delivery =>
      if delivery.phase = .due then
        { d.put i delivery.called with calls := d.calls ++ [⟨i, delivery.jobId, delivery.body⟩] }
      else d
    | none => d
  | .answer i outcome =>
    match d.deliveries[i]? with
    | some delivery =>
      if delivery.phase = .calling then
        (d.put i (delivery.answered d.limit outcome)).count (delivery.answered d.limit outcome)
      else d
    | none => d
  | .wake i =>
    match d.deliveries[i]? with
    | some delivery => if delivery.phase = .resting then d.put i delivery.rested else d
    | none => d

/-- Some steps in order. -/
def run (d : Dispatcher) (steps : List Step) : Dispatcher := steps.foldl step d

end Dispatcher
end OracleRelay
