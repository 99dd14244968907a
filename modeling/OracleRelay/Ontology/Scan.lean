/-
# Scanning the blocks of a chain

At each beat of the clock the adapter asks how far the chain has come and goes through the blocks that it has not
seen, one after the other. It is past a block only when all requests of the block were handed on; a block that
cannot be read is read again at the next beat. The first block is the tip that the node named first.

Key definitions: `Ontology.Scanner`, `Ontology.tipOf`, `Ontology.Scanner.absorbTip`,
`Ontology.Scanner.absorbBlock`, `Ontology.Scanner.wait`.
-/
import OracleRelay.Adapter.Loop
import OracleRelay.Ontology.Notice
import OracleRelay.Rpc.Fault

namespace OracleRelay
namespace Ontology

/-- Where a scan stands. -/
inductive Scanner.Phase where
  /-- before the next beat -/
  | idle
  /-- with the question for the tip at the node -/
  | findingTip
  /-- with the question for a block at the node, on the way to a tip -/
  | reading (height tip : Nat)
  /-- with a request on offer and requests after it, in a block on the way to a tip -/
  | handing (request : JobRequest) (rest : List JobRequest) (height tip : Nat)
  deriving Inhabited

/-- An adapter that scans blocks. -/
structure Scanner where
  jobId : String
  addresses : List String
  /-- the first block that is not fully scanned -/
  next : Option Nat := none
  /-- whether the node has named a tip -/
  seen : Bool := false
  phase : Scanner.Phase := .idle
  deriving Inhabited

/-- The milliseconds between two scans. -/
def scanMillis : Nat := 5000

/-- The call for the number of blocks. -/
def countCall : Rpc.Call := ⟨"getblockcount", []⟩

/-- The call for the notices of a block. -/
def blockCall (height : Nat) : Rpc.Call := ⟨"getsmartcodeevent", [.nat height]⟩

/-- The newest block, from the number of blocks. -/
def tipOf (reply : Except TransportFault Json) : Except TransportFault Nat :=
  match reply with
  | .error fault => .error fault
  | .ok v =>
    match v.nat? 64 with
    | some count => .ok (count - 1)
    | none => .error (.unexpected ("block count " ++ v.render))

namespace Scanner

/-- The name of the adapter. -/
def name : String := "ontology/scan"

/-- Rests until the next beat. -/
def rest (s : Scanner) : Scanner := { s with phase := .idle }

/-- Goes to a block, if the tip is not behind it. -/
def goTo (s : Scanner) (height tip : Nat) : Scanner :=
  if height ≤ tip then { s with phase := .reading height tip } else s.rest

/-- Takes in the answer to the question for the tip. -/
def absorbTip (s : Scanner) (reply : Except TransportFault Json) : Scanner :=
  match tipOf reply with
  | .error _ => s.rest
  | .ok tip =>
    let start := s.next.getD tip
    { s with seen := true, next := some start }.goTo start tip

/-- Hands on the requests of a block; when none is left, the block is behind the scan. -/
def proceed (s : Scanner) (requests : List JobRequest) (height tip : Nat) : Scanner :=
  match requests with
  | request :: rest => { s with phase := .handing request rest height tip }
  | [] => { s with next := some (height + 1) }.goTo (height + 1) tip

/-- Takes in the answer to the question for a block. -/
def absorbBlock (s : Scanner) (height tip : Nat) (reply : Except TransportFault Json) : Scanner :=
  match reply with
  | .error _ => s.rest
  | .ok v =>
    match blockTransactions v with
    | none => s.rest
    | some transactions => s.proceed (requestsIn s.addresses s.jobId transactions) height tip

/-- The loop of the adapter. The question for the tip is seen through even when the adapter is told to stop. -/
def wait : Adapter.Loop Rpc.Call (fun _ => Except TransportFault Json) Scanner := fun s =>
  match s.phase with
  | .idle => .tick { s with phase := .findingTip }
  | .findingTip => .ask countCall .unheeded s.absorbTip
  | .reading height tip => .ask (blockCall height) .heeded (s.absorbBlock height tip)
  | .handing request rest height tip => .offer (.request request) (s.proceed rest height tip)

end Scanner
end Ontology
end OracleRelay
