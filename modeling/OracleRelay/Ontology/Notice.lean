/-
# Notices of contracts

What an Ontology node says about the contracts that ran in a block: for each transaction the notices that its
contracts gave. A notice is a list of states; the states of an oracle request have fixed places.

Key definitions: `Notice`, `Transaction`, `blockTransactions`, `Notice.request`, `requestsIn`.
-/
import OracleRelay.Cbor.Params
import OracleRelay.Json.Record
import OracleRelay.Request.Runlog

namespace OracleRelay
namespace Ontology

/-- What a contract gave notice of. -/
structure Notice where
  contract : String := ""
  states : Json := .null
  deriving Inhabited

/-- A transaction with the notices of its contracts. -/
structure Transaction where
  hash : String := ""
  notices : List Notice := []
  deriving Inhabited

/-- Reads a notice. -/
def Notice.reader : Json.Reader Notice := fun depth t => do
  let r ← Json.Record.read? ["ContractAddress", "States"] depth t
  return {
    contract := ← r.withDefault "ContractAddress" Json.Tree.string? ""
    states := ← r.withDefault "States" Json.Tree.value? .null }

/-- Reads a transaction. -/
def Transaction.reader : Json.Reader Transaction := fun depth t => do
  let r ← Json.Record.read? ["TxHash", "Notify"] depth t
  return {
    hash := ← r.withDefault "TxHash" Json.Tree.string? ""
    notices := ← r.withDefault "Notify" (Json.Tree.list? Notice.reader) [] }

/-- The transactions of a block. Anything but a list stands for a block without any. -/
def blockTransactions (v : Json) : Option (List Transaction) :=
  match v with
  | .array _ => Json.readValue? (Json.Tree.list? Transaction.reader) v
  | _ => some []

/-- The first state of an oracle request: the name of the notice in hexadecimal. -/
def requestName : String := "6f7261636c6552657175657374"

/-- An oracle request has at least so many states. -/
def leastStates : Nat := 11

/-- The text of a state. -/
def stateText (states : List Json) (i : Nat) : String := (states.getD i .null).plainText

namespace Notice

/-- The states of an oracle request of a watched contract for the job. -/
def requestStates? (n : Notice) (addresses : List String) (jobId : String) : Option (List Json) :=
  match n.states with
  | .array states =>
    if addresses.contains n.contract && leastStates ≤ states.length && stateText states 0 = requestName &&
        stateText states 1 = jobId then some states
    else none
  | _ => none

/-- The request whose states these are. What the states say wins over the parameters. -/
def requestOf (contract : String) (states : List Json) : Except Cbor.Fault JobRequest :=
  match Hex.decode (stateText states 9) with
  | .error fault => .error (.notHex fault)
  | .ok bs =>
    (Cbor.parseParams bs).map fun params => ⟨stateText states 1, params.merge
      [(Runlog.addressKey, .text contract), ("requestID", .text (stateText states 3)),
       ("payment", .text (stateText states 4)), ("callbackAddress", .text (stateText states 5)),
       ("callbackFunction", .text (stateText states 6)), ("expiration", .text (stateText states 7))]⟩

/-- The request that a notice carries, if it is an oracle request of a watched contract for the job. -/
def request (n : Notice) (addresses : List String) (jobId : String) : Except Cbor.Fault (Option JobRequest) :=
  match n.requestStates? addresses jobId with
  | none => .ok none
  | some states => (requestOf n.contract states).map some

end Notice

/-- The requests for the job that the transactions of a block carry. Those that cannot be read are left out. -/
def requestsIn (addresses : List String) (jobId : String) (transactions : List Transaction) : List JobRequest :=
  transactions.flatMap fun t => t.notices.filterMap fun n => ((n.request addresses jobId).toOption).join

end Ontology
end OracleRelay
