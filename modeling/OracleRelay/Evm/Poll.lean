/-
# Polling a node for logs

At each beat of the clock the adapter asks for the logs at or after its cursor and hands on the events in the
answer. Each event moves the cursor past its position before it is offered. A poll that fails leaves the cursor
where it is.

Key definitions: `Evm.Poller`, `Evm.Poller.create`, `Evm.Poller.seeded`, `Evm.Poller.absorb`, `Evm.Poller.wait`.
-/
import OracleRelay.Adapter.Loop
import OracleRelay.Evm.Log

namespace OracleRelay
namespace Evm

/-- Where a poll stands. -/
inductive Poller.Phase where
  /-- before the next beat -/
  | idle
  /-- with a query at the node -/
  | asking (argument : Json)
  /-- with an event on offer and logs after it -/
  | handing (event : LogEvent) (rest : List Log)
  deriving Inhabited

/-- An adapter that polls. -/
structure Poller where
  flavor : Flavor
  filter : LogFilter
  /-- whether the node has answered a query -/
  seen : Bool := false
  phase : Poller.Phase := .idle
  deriving Inhabited

namespace Poller

/-- The adapter for a job and some contracts, from the tip of the chain on. -/
def create (flavor : Flavor) (jobId : String) (addresses : List String) : Poller :=
  let filter := LogFilter.runlog flavor.rangeKind jobId (addresses.map flavor.normalizeAddress)
  { flavor, filter := { filter with range := filter.range.ensureStarted } }

/-- The name of the adapter. -/
def name (p : Poller) : String := p.flavor.chain.tag ++ "/poll"

/-- The lower bound of the next query. -/
def cursor (p : Poller) : String := p.filter.range.bound

/-- The call that tries the connection: it asks for the head of the chain. -/
def headCall (p : Poller) : Rpc.Call := ⟨p.flavor.methods.head, []⟩

/-- The adapter after its cursor was set to the head that the node named. -/
def seeded (p : Poller) : Except TransportFault Json → Except AdapterFault Poller
  | .ok (.text head) => .ok { p with filter := { p.filter with range := p.filter.range.seed head } }
  | .ok v => .error (.protocol (p.flavor.methods.head ++ " returned " ++ v.render))
  | .error fault => .error (.transport fault)

/-- The adapter after its cursor took note of an event. -/
def noting (p : Poller) (event : LogEvent) : Poller :=
  match event.position with
  | some n => { p with filter := { p.filter with range := p.filter.range.observe n } }
  | none => p

/-- Goes on with the first event in some logs; when there is none, the poll is over. -/
def proceed (p : Poller) : List Log → Poller
  | [] => { p with phase := .idle }
  | log :: rest =>
    if log.isRemoved then p.proceed rest
    else
      match log.event p.flavor.rangeKind with
      | .error _ => p.proceed rest
      | .ok event => { p.noting event with phase := .handing event rest }

/-- Takes in the answer to a query. -/
def absorb (p : Poller) (reply : Except TransportFault Json) : Poller :=
  match reply with
  | .error _ => { p with phase := .idle }
  | .ok v =>
    match readLogs p.flavor v with
    | .error _ => { p with phase := .idle }
    | .ok logs => { p with seen := true }.proceed logs

/-- Begins a poll. -/
def launch (p : Poller) : Poller :=
  match p.filter.argument .tip with
  | .ok argument => { p with phase := .asking argument }
  | .error _ => { p with phase := .idle }

/-- The loop of the adapter. -/
def wait : Adapter.Loop Rpc.Call (fun _ => Except TransportFault Json) Poller := fun p =>
  match p.phase with
  | .idle => .tick p.launch
  | .asking argument => .ask ⟨p.flavor.methods.getLogs, [argument]⟩ .heeded p.absorb
  | .handing event rest => .offer (.log event) (p.proceed rest)

end Poller
end Evm
end OracleRelay
