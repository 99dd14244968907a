/-
# Pumps

A pump takes the events that an adapter put into its sink, one after the other, and hands on the request of its job
that an event holds. Events of other jobs and events that cannot be decoded are passed over. To be told to stop comes
before all else: what waits in the sink then is dropped. With an event in hand the pump looks once more, so that the
event is dropped too if the pump was told to stop while it took it.

Key definitions: `Pump`, `Pump.Hand`, `Pump.Step`, `Pump.requestIn`, `Pump.step`, `Pump.run`.
-/
import OracleRelay.Request.Event

namespace OracleRelay

/-- What a pump has in hand. -/
inductive Pump.Hand where
  | empty
  /-- an event out of the sink -/
  | taken (e : ChainEvent)
  /-- an event that the pump is going to hand on, for it was not told to stop while it took it -/
  | cleared (e : ChainEvent)
  deriving Inhabited

/-- The pump of a job with the events that wait and the requests that it has handed on. -/
structure Pump where
  jobId : String
  waiting : List ChainEvent := []
  hand : Pump.Hand := .empty
  /-- whether the pump was told to stop -/
  told : Bool := false
  /-- whether the adapter has ended -/
  closed : Bool := false
  ended : Bool := false
  handed : List Fields := []
  deriving Inhabited

namespace Pump

/-- What can happen. -/
inductive Step where
  /-- the adapter puts an event into the sink -/
  | event (e : ChainEvent)
  | told
  /-- the adapter ends -/
  | closed
  /-- the pump does the next thing -/
  | turn
  deriving Inhabited

/-- The request that the pump hands on for an event. -/
def requestIn (jobId : String) (e : ChainEvent) : Option Fields := (e.requestFor jobId).toOption.join

/-- The next thing that the pump does: it takes an event, looks again, or hands on the request. -/
def turn (p : Pump) : Pump :=
  if p.ended then p
  else match p.hand with
    | .empty =>
      if p.told then { p with ended := true }
      else match p.waiting with
        | e :: rest => { p with waiting := rest, hand := .taken e }
        | [] => if p.closed then { p with ended := true } else p
    | .taken e => if p.told then { p with hand := .empty, ended := true } else { p with hand := .cleared e }
    | .cleared e => { p with hand := .empty, handed := p.handed ++ (requestIn p.jobId e).toList }

/-- One step. A pump that has ended takes no events. -/
def step (p : Pump) : Step → Pump
  | .event e => if p.ended then p else { p with waiting := p.waiting ++ [e] }
  | .told => { p with told := true }
  | .closed => { p with closed := true }
  | .turn => p.turn

/-- Some steps in order. -/
def run (p : Pump) (steps : List Step) : Pump := steps.foldl step p

/-- The pump after it took an event at once and was through with it. -/
def pass (p : Pump) (e : ChainEvent) : Pump := p.run [.event e, .turn, .turn, .turn]

end Pump
end OracleRelay
