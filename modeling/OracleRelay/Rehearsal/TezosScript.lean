/-
# A node that announces heads from a script

Each time the node is asked to announce heads it takes the next session of its script: a refusal, or the lines of
the announcements. Blocks and scripts are looked up by name.

Key definitions: `Rehearsal.TezosScript`, `Rehearsal.tezosNode`, `Rehearsal.follow`.
-/
import OracleRelay.Rehearsal.RpcScript
import OracleRelay.Tezos.Monitor

namespace OracleRelay
namespace Rehearsal

/-- The sessions that are left, the lines of the one that is open, and what the node knows. -/
structure TezosScript where
  sessions : List (Option (List (Except TransportFault String))) := []
  blocks : String → Except TransportFault Json
  scripts : String → Except TransportFault Json
  /-- the call with whose reply nobody takes events any more -/
  desertsAt : Option Nat := none
  /-- the call with whose reply the adapter is told to stop -/
  tellsAt : Option Nat := none
  lines : List (Except TransportFault String) := []
  /-- the calls so far; a line is none -/
  calls : Nat := 0

/-- What a node says of a block or script that it does not know. -/
def unknownName : TransportFault := .http "HTTP 404: "

/-- The node of a script. -/
def tezosNode : Node Tezos.Question Tezos.Question.Answer TezosScript where
  answer s question := match question with
    | .heads => match s.sessions with
      | [] => .error endOfScript
      | none :: _ => .error (.http "refused")
      | some _ :: _ => .ok ()
    | .line => s.lines.head?
    | .block hash => s.blocks hash
    | .script address => s.scripts address
  cue s question := match question with
    | .line => { noted := false }
    | .heads => {
      deserts := s.desertsAt = some s.calls
      tells := s.tellsAt = some s.calls || s.sessions.isEmpty }
    | _ => { deserts := s.desertsAt = some s.calls, tells := s.tellsAt = some s.calls }
  next s question := match question with
    | .line => { s with lines := s.lines.tail }
    | .heads => { s with
      sessions := s.sessions.tail, lines := (s.sessions.head?.join).getD [], calls := s.calls + 1 }
    | _ => { s with calls := s.calls + 1 }

/-- A transcript of an adapter that follows heads: how the trial of the connection went, what was asked and passed
on before and after that, whether the adapter saw its source alive, and the time of the end. -/
structure TezosRun where
  trial : Option (Except AdapterFault Unit)
  before : List (Entry Tezos.Question)
  after : List (Entry Tezos.Question)
  seen : Bool
  millis : Nat

/-- Runs an adapter that follows heads, after a trial of its connection if there is to be one. -/
def follow (monitor : Tezos.Monitor) (test : Bool) (script : TezosScript) : TezosRun :=
  let stage : Stage Tezos.Question Tezos.Monitor TezosScript := { adapter := { state := monitor }, script }
  let tried := stage.consult tezosNode (·.seen) .heads
  let start := if test then { tried with lines := [] } else stage
  let s := start.play Tezos.Monitor.wait tezosNode (·.seen) 0 longestPlay
  { trial := if test then some ((tezosNode.answer script .heads).mapError .transport) else none
    before := if test then tried.transcript else []
    after := s.transcript
    seen := s.adapter.state.seen
    millis := s.now }

end Rehearsal
end OracleRelay
