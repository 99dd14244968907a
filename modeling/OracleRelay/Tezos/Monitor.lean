/-
# Following the heads of a chain

The adapter follows the lines in which a node announces new heads. For each head it reads the block and, for each
request call in it, the script of the oracle that was called; the requests of the block are handed on when all
scripts are read. When the lines end or break, it waits and follows anew.

Key definitions: `Tezos.Question`, `Tezos.Monitor`, `Tezos.Monitor.absorbLine`, `Tezos.Monitor.absorbBlock`,
`Tezos.Monitor.absorbScript`, `Tezos.Monitor.wait`.
-/
import OracleRelay.Adapter.Loop
import OracleRelay.Tezos.Request

namespace OracleRelay
namespace Tezos

/-- What the adapter asks of a node. -/
inductive Question where
  /-- to announce new heads -/
  | heads
  /-- for the next line of the announcements -/
  | line
  /-- for the operations of a block -/
  | block (hash : String)
  /-- for the script of a contract -/
  | script (address : String)
  deriving DecidableEq, Repr

/-- What a node says to a question. -/
abbrev Question.Answer : Question → Type
  | .heads => Except TransportFault Unit
  | .line => Option (Except TransportFault String)
  | .block _ => Except TransportFault Json
  | .script _ => Except TransportFault Json

/-- Where the adapter stands. -/
inductive Monitor.Phase where
  /-- before announcements -/
  | opening
  /-- before the next line -/
  | following
  /-- with the question for a block at the node -/
  | reading (hash : String)
  /-- with the question for the script of a call at the node, calls after it, and the requests found before it -/
  | resolving (call : Call) (rest : List Call) (found : List JobRequest)
  /-- with a request on offer and requests after it -/
  | handing (request : JobRequest) (rest : List JobRequest)
  /-- between announcements that ended and new ones -/
  | pausing
  deriving Inhabited

/-- An adapter that follows heads. -/
structure Monitor where
  jobId : String
  addresses : List String
  /-- the milliseconds before following anew -/
  retryMillis : Nat := 5000
  /-- whether a line has come -/
  seen : Bool := false
  phase : Monitor.Phase := .opening
  deriving Inhabited

namespace Monitor

/-- The name of the adapter. -/
def name : String := "tezos/monitor"

/-- The adapter in another phase. -/
def enter (m : Monitor) (phase : Phase) : Monitor := { m with phase }

/-- Takes in whether the node announces heads. -/
def absorbHeads (m : Monitor) (reply : Except TransportFault Unit) : Monitor :=
  match reply with
  | .ok () => m.enter .following
  | .error _ => m.enter .pausing

/-- Takes in a line. One that names no head is passed over. -/
def absorbLine (m : Monitor) (reply : Option (Except TransportFault String)) : Monitor :=
  match reply with
  | some (.ok line) =>
    let m := { m with seen := true }
    match Json.readText? HeadLine.reader line with
    | some head => m.enter (if head.hash = "" then .following else .reading head.hash)
    | none => m.enter .following
  | _ => m.enter .pausing

/-- Hands on requests; when none is left, the next line is due. -/
def proceed (m : Monitor) : List JobRequest → Monitor
  | [] => m.enter .following
  | request :: rest => m.enter (.handing request rest)

/-- Goes on with the calls of a block; when none is left, the requests found are handed on. -/
def resolve (m : Monitor) (found : List JobRequest) : List Call → Monitor
  | [] => m.proceed found
  | call :: rest => m.enter (.resolving call rest found)

/-- Takes in the operations of a block. -/
def absorbBlock (m : Monitor) (reply : Except TransportFault Json) : Monitor :=
  match reply with
  | .error _ => m.enter .following
  | .ok block =>
    match blockCalls m.addresses block with
    | .error _ => m.enter .following
    | .ok calls => m.resolve [] calls

/-- Takes in the script of the oracle that a call reached. -/
def absorbScript (m : Monitor) (call : Call) (rest : List Call) (found : List JobRequest)
    (reply : Except TransportFault Json) : Monitor :=
  m.resolve (found ++ (requestWith m.jobId reply call).toList) rest

/-- The loop of the adapter. -/
def wait : Adapter.Loop Question Question.Answer Monitor := fun m =>
  match m.phase with
  | .opening => .ask .heads .heeded m.absorbHeads
  | .following => .ask .line .heeded m.absorbLine
  | .reading hash => .ask (.block hash) .heeded m.absorbBlock
  | .resolving call rest found => .ask (.script call.destination) .inOneBreath (m.absorbScript call rest found)
  | .handing request rest => .offer (.request request) (m.proceed rest)
  | .pausing => .pause m.retryMillis (m.enter .opening)

end Monitor

/-- The questions that a block leads to: for its operations, then for the script of each request call in it. -/
def headQuestions (oracles : List String) (hash : String) (block : Except TransportFault Json) : List Question :=
  .block hash :: match block with
    | .error _ => []
    | .ok v => ((blockCalls oracles v).toOption.getD []).map fun call => .script call.destination

/-- The requests of the block of a head. -/
def headRequests (jobId : String) (oracles : List String) (block : Except TransportFault Json)
    (script : String → Except TransportFault Json) : Except TezosFault (List JobRequest) :=
  match block with
  | .error fault => .error (.transport fault)
  | .ok v => blockRequests jobId oracles script v

end Tezos
end OracleRelay
