/-
# Problems of a snapshot

What is wrong in a snapshot, found without a connection to any node: endpoints that are not valid, and subscriptions
that are not valid for the first endpoint of the name they give.

Key definitions: `Problem`, `Problem.line`, `Snapshot.problems`.
-/
import OracleRelay.Config.Store
import OracleRelay.Text.Column

namespace OracleRelay

/-- What is wrong in a snapshot. -/
inductive Problem where
  | endpoint (name : String) (fault : ConfigFault)
  | unknownEndpoint (jobId name : String)
  | subscription (jobId : String) (fault : ConfigFault)
  deriving DecidableEq, Repr

/-- The line of a list of problems: what it is about, in a column, and what is wrong. -/
def Problem.line : Problem → String
  | .endpoint name fault => "  endpoint " ++ Column.padded 20 name ++ " " ++ fault.message
  | .unknownEndpoint jobId name => "  job " ++ Column.padded 25 jobId ++ " unknown endpoint " ++ name
  | .subscription jobId fault => "  job " ++ Column.padded 25 jobId ++ " " ++ fault.message

/-- What is wrong with an endpoint. -/
def Endpoint.problem? (e : Endpoint) : Option Problem :=
  match e.validate with
  | .ok () => none
  | .error fault => some (.endpoint e.name fault)

/-- What is wrong with a subscription to one of some endpoints. -/
def Subscription.problem? (endpoints : List Endpoint) (s : Subscription) : Option Problem :=
  match endpoints.find? (·.name = s.endpoint) with
  | none => some (.unknownEndpoint s.jobId s.endpoint)
  | some e => match s.validateFor e with
    | .ok () => none
    | .error fault => some (.subscription s.jobId fault)

/-- The problems of a snapshot: those of its endpoints first, each kind in the order of the snapshot. -/
def Snapshot.problems (s : Snapshot) : List Problem :=
  s.endpoints.filterMap (·.problem?) ++ s.subscriptions.filterMap (·.problem? s.endpoints)

end OracleRelay
