/-
# A node that answers calls from a script

Call after call the node takes the next reply of its script. When there is none left, it fails the call and tells
the adapter to stop.

Key definitions: `Rehearsal.RpcReply`, `Rehearsal.RpcScript`, `Rehearsal.rpcNode`, `Rehearsal.poll`,
`Rehearsal.scan`.
-/
import OracleRelay.Evm.Poll
import OracleRelay.Ontology.Scan
import OracleRelay.Rehearsal.Stage

namespace OracleRelay
namespace Rehearsal

/-- What a node says to a call, and how long it takes. -/
structure RpcReply where
  outcome : Except TransportFault Json
  delay : Nat := 0

/-- The replies that are left, and when the node does more than reply. -/
structure RpcScript where
  replies : List RpcReply
  /-- the call with whose reply nobody takes events any more -/
  desertsAt : Option Nat := none
  /-- the call with whose reply the adapter is told to stop -/
  tellsAt : Option Nat := none
  /-- the calls so far -/
  calls : Nat := 0

/-- What a node says when its script is at an end. -/
def endOfScript : TransportFault := .http "end of script"

/-- The node of a script. -/
def rpcNode : Node Rpc.Call (fun _ => Except TransportFault Json) RpcScript where
  answer s _ := match s.replies with
    | [] => .error endOfScript
    | reply :: _ => reply.outcome
  cue s _ := {
    delay := match s.replies with
      | [] => 0
      | reply :: _ => reply.delay
    deserts := s.desertsAt = some s.calls
    tells := s.tellsAt = some s.calls || s.replies.isEmpty }
  next s _ := { s with replies := s.replies.tail, calls := s.calls + 1 }

/-- A transcript of an adapter that calls methods: how the trial of the connection went and with which adapter it
ended, what was asked and passed on before and after that, and the adapter at the end. -/
structure RpcRun (σ : Type) where
  trial : Option (Except AdapterFault Unit × σ)
  before : List (Entry Rpc.Call)
  after : List (Entry Rpc.Call)
  last : σ
  /-- the time of the end -/
  millis : Nat

/-- Runs an adapter, after a trial of its connection if there is to be one. A trial is a call and what the
adapter makes of the answer; an adapter whose trial failed runs unchanged. -/
def runRpc {σ : Type} (loop : Adapter.Loop Rpc.Call (fun _ => Except TransportFault Json) σ) (seen : σ → Bool)
    (period : Nat) (trial : Option (Rpc.Call × (Except TransportFault Json → Except AdapterFault σ)))
    (start : σ) (script : RpcScript) : RpcRun σ :=
  let stage : Stage Rpc.Call σ RpcScript := { adapter := { state := start }, script }
  let play (s : Stage Rpc.Call σ RpcScript) := s.play loop rpcNode seen period longestPlay
  match trial with
  | none =>
    let s := play stage
    ⟨none, [], s.transcript, s.adapter.state, s.now⟩
  | some (call, judge) =>
    let verdict := judge (rpcNode.answer script call)
    let tried := stage.consult rpcNode seen call
    let state := verdict.toOption.getD start
    let s := play { tried with adapter := tried.adapter.enter state, lines := [] }
    ⟨some (verdict.map fun _ => (), state), tried.transcript, s.transcript, s.adapter.state, s.now⟩

/-- Runs an adapter that polls for logs, at a period. -/
def poll (poller : Evm.Poller) (period : Nat) (test : Bool) (script : RpcScript) : RpcRun Evm.Poller :=
  runRpc Evm.Poller.wait (·.seen) period (if test then some (poller.headCall, poller.seeded) else none) poller script

/-- Runs an adapter that scans blocks, at a period. -/
def scan (scanner : Ontology.Scanner) (period : Nat) (test : Bool) (script : RpcScript) :
    RpcRun Ontology.Scanner :=
  let trial (reply : Except TransportFault Json) : Except AdapterFault Ontology.Scanner :=
    match Ontology.tipOf reply with
    | .ok _ => .ok scanner
    | .error fault => .error (.transport fault)
  runRpc Ontology.Scanner.wait (·.seen) period (if test then some (Ontology.countCall, trial) else none) scanner
    script

end Rehearsal
end OracleRelay
