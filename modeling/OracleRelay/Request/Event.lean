/-
# Events of chains

What adapters pass on: logs as the chain emitted them, and requests that the chain gives in a form of its own.
A subscription takes from them the requests of its job.

Key definitions: `ChainEvent`, `LogEvent`, `ChainEvent.requestFor`.
-/
import OracleRelay.Request.JobId
import OracleRelay.Request.Runlog

namespace OracleRelay

/-- A log of a contract. -/
structure LogEvent where
  address : String
  topics : List String
  data : List UInt8
  /-- the block or epoch, if the node named it -/
  position : Option Nat
  deriving DecidableEq, Repr, Inhabited

/-- The topic that names the job. -/
def LogEvent.jobTopic? (log : LogEvent) : Option String := log.topics[1]?

/-- What an adapter passes on. -/
inductive ChainEvent where
  | log (event : LogEvent)
  | request (request : JobRequest)
  deriving Inhabited

/-- Whether a log names the job. -/
def LogEvent.isFor (log : LogEvent) (jobId : String) : Bool :=
  log.jobTopic?.any (JobId.matchesTopic · jobId)

/-- The request that an event holds for a job: none when it belongs to another one. -/
def ChainEvent.requestFor (jobId : String) : ChainEvent → Except Runlog.Fault (Option Fields)
  | .log event =>
    if event.isFor jobId then (Runlog.decode event.data event.address).map some else .ok none
  | .request r => .ok (if jobId = r.jobId then some r.fields else none)

end OracleRelay
