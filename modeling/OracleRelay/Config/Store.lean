/-
# The store of configurations

Endpoints by name and subscriptions in the order in which they came. A store starts from a snapshot.

Key definitions: `Snapshot`, `Store`, `Store.ofSnapshot`, `Store.saveSubscription`, `Store.deleteSubscription`,
`Store.endpoint?`, `Store.keepEndpoints`.
-/
import OracleRelay.Config.Endpoint

namespace OracleRelay

/-- What a store starts from. -/
structure Snapshot where
  endpoints : List Endpoint := []
  subscriptions : List Subscription := []
  deriving DecidableEq, Repr, Inhabited

namespace Snapshot

/-- Reads a snapshot. -/
def reader : Json.Reader Snapshot := fun depth t => do
  let r ← Json.Record.read? ["endpoints", "subscriptions"] depth t
  return {
    endpoints := ← r.withDefault "endpoints" (Json.Tree.list? Endpoint.reader) []
    subscriptions := ← r.withDefault "subscriptions" (Json.Tree.list? Subscription.reader) [] }

/-- A snapshot as a value. -/
def toJson (s : Snapshot) : Json := .object
  [("endpoints", .array (s.endpoints.map (·.toJson))), ("subscriptions", .array (s.subscriptions.map (·.toJson)))]

end Snapshot

/-- Why the store refuses. -/
inductive StoreFault where
  | endpointNotFound (name : String)
  | subscriptionNotFound (jobId : String)
  | backend (text : String)
  deriving DecidableEq, Repr

/-- The text of a fault. -/
def StoreFault.message : StoreFault → String
  | .endpointNotFound name => "endpoint '" ++ name ++ "' not found"
  | .subscriptionNotFound jobId => "subscription '" ++ jobId ++ "' not found"
  | .backend text => "store backend error: " ++ text

/-- The stored endpoints, each name once, and the stored subscriptions. -/
structure Store where
  endpoints : List Endpoint := []
  subscriptions : List Subscription := []
  deriving DecidableEq, Repr, Inhabited

namespace Store

/-- Puts an endpoint in place of the one with its name, or at the end. -/
def putEndpoint (e : Endpoint) : List Endpoint → List Endpoint
  | [] => [e]
  | d :: ds => if d.name = e.name then e :: ds else d :: putEndpoint e ds

/-- Puts a subscription in place of the first one for its job, or at the end. -/
def putSubscription (s : Subscription) : List Subscription → List Subscription
  | [] => [s]
  | t :: ts => if t.jobId = s.jobId then s :: ts else t :: putSubscription s ts

/-- The store of a snapshot. Of endpoints with one name the last counts; subscriptions stay as they are. -/
def ofSnapshot (s : Snapshot) : Store :=
  ⟨s.endpoints.foldl (fun es e => putEndpoint e es) [], s.subscriptions⟩

/-- The endpoint with a name. -/
def endpoint? (s : Store) (name : String) : Except StoreFault Endpoint :=
  match s.endpoints.find? (·.name = name) with
  | some e => .ok e
  | none => .error (.endpointNotFound name)

/-- Stores an endpoint under its name. -/
def saveEndpoint (s : Store) (e : Endpoint) : Store := { s with endpoints := putEndpoint e s.endpoints }

/-- Drops the endpoints whose names are not listed. -/
def keepEndpoints (s : Store) (names : List String) : Store :=
  { s with endpoints := s.endpoints.filter fun e => names.contains e.name }

/-- Stores a subscription for its job. -/
def saveSubscription (s : Store) (sub : Subscription) : Store :=
  { s with subscriptions := putSubscription sub s.subscriptions }

/-- Whether a subscription for the job is stored. -/
def hasJob (s : Store) (jobId : String) : Bool := s.subscriptions.any (·.jobId = jobId)

/-- Drops the subscriptions for a job; there must be one. -/
def deleteSubscription (s : Store) (jobId : String) : Except StoreFault Store :=
  if s.hasJob jobId then .ok { s with subscriptions := s.subscriptions.filter (·.jobId ≠ jobId) }
  else .error (.subscriptionNotFound jobId)

end Store
end OracleRelay
