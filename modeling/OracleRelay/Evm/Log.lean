/-
# Logs of EVM nodes

A log as nodes give it, in an answer to a query or pushed one at a time, and the event that it stands for.
Logs that a node has taken back stand for none.

Key definitions: `Evm.Log`, `Evm.Log.reader`, `Evm.Log.event`, `Evm.readPushed`, `Evm.readLogs`, `Evm.polledEvents`.
-/
import OracleRelay.Evm.Flavor
import OracleRelay.Request.Event
import OracleRelay.Rpc.Fault

namespace OracleRelay
namespace Evm

/-- A log as a node writes it. -/
structure Log where
  address : String
  topics : List String := []
  data : String := ""
  blockNumber : Option String := none
  epochNumber : Option String := none
  removed : Option Bool := none
  deriving DecidableEq, Repr, Inhabited

namespace Log

/-- Reads a log. -/
def reader : Json.Reader Log := fun depth t => do
  let r ← Json.Record.read? ["address", "topics", "data", "blockNumber", "epochNumber", "removed"] depth t
  return {
    address := ← r.required "address" Json.Tree.string?
    topics := ← r.withDefault "topics" (Json.Tree.list? Json.Tree.string?) []
    data := ← r.withDefault "data" Json.Tree.string? ""
    blockNumber := ← r.optionalOrBeyond "blockNumber" Json.Tree.string?
    epochNumber := ← r.optionalOrBeyond "epochNumber" Json.Tree.string?
    removed := ← r.optionalOrBeyond "removed" Json.Tree.bool? }

/-- The log that a value holds, its address as the flavor's filters expect it. -/
def ofValue? (flavor : Flavor) (v : Json) : Option Log :=
  (Json.readValue? reader v).map fun log => { log with address := flavor.normalizeAddress log.address }

/-- Whether the node has taken the log back. -/
def isRemoved (log : Log) : Bool := log.removed.getD false

/-- The block or epoch of the log. -/
def position (log : Log) : RangeKind → Option Nat
  | .block => log.blockNumber.bind Position.parse?
  | .epoch => log.epochNumber.bind Position.parse?

/-- The event that a log stands for. -/
def event (log : Log) (kind : RangeKind) : Except AdapterFault LogEvent :=
  match Hex.decode (Hex.stripMark log.data) with
  | .error fault => .error (.protocol ("log data is not hex: " ++ fault.message))
  | .ok data => .ok ⟨log.address, log.topics, data, log.position kind⟩

end Log

/-- Reads what a node pushed. There is no event in a notice that blocks were dropped, nor in a removed log. -/
def readPushed (flavor : Flavor) (v : Json) : Except AdapterFault (Option LogEvent) :=
  if flavor.hasRevertNotices && (v.get? "revertTo").isSome then .ok none
  else
    match Log.ofValue? flavor v with
    | none => .error (.transport .unreadable)
    | some log => if log.isRemoved then .ok none else (log.event flavor.rangeKind).map some

/-- Reads the result of a query for logs: a list, of which entries that are no logs are left out. -/
def readLogs (flavor : Flavor) (v : Json) : Except AdapterFault (List Log) :=
  match v with
  | .array entries => .ok (entries.filterMap (Log.ofValue? flavor))
  | _ => .error (.protocol (flavor.methods.getLogs ++ " result is not a list"))

/-- The events of some logs: one for each that is not removed and whose data can be read. -/
def polledEvents (kind : RangeKind) (logs : List Log) : List LogEvent :=
  logs.filterMap fun log => if log.isRemoved then none else (log.event kind).toOption

end Evm
end OracleRelay
