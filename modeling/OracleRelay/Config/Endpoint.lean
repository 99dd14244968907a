/-
# Endpoints and subscriptions

An endpoint is a node of a chain at an address; a subscription asks for the requests of one job at an
endpoint. The scheme of the address decides whether the node pushes events or is polled.

Key definitions: `Endpoint`, `Endpoint.connection`, `Endpoint.validate`, `Subscription`,
`Subscription.validateFor`, `ConfigFault.message`.
-/
import OracleRelay.Config.Chain
import OracleRelay.Json.Printer
import OracleRelay.Json.Record
import OracleRelay.Text.Blank
import OracleRelay.Url.Address

namespace OracleRelay

/-- How the relay is connected to a node. -/
inductive Connection where
  | push
  | poll
  deriving DecidableEq, Repr

/-- The name of a way to connect. -/
def Connection.name : Connection → String
  | .push => "push"
  | .poll => "poll"

/-- What is wrong with a configuration. -/
inductive ConfigFault where
  | invalidUrl (url : String) (fault : Url.Fault)
  | unsupportedScheme (scheme : String)
  | unknownChain (tag : String)
  | missingEndpointName
  | missingParameter (chain : Chain) (field : String)
  | invalidParameter (field value : String)
  | unsupportedConnection (chain : Chain) (connection : Connection)
  deriving DecidableEq, Repr

/-- The text of a fault. -/
def ConfigFault.message : ConfigFault → String
  | .invalidUrl url fault => "invalid endpoint url '" ++ url ++ "': " ++ fault.message
  | .unsupportedScheme scheme =>
    "unsupported url scheme '" ++ scheme ++ "', expected ws, wss, http or https"
  | .unknownChain tag => "unknown chain type '" ++ tag ++ "'"
  | .missingEndpointName => "endpoint name must not be empty"
  | .missingParameter chain field => chain.tag ++ " subscriptions require " ++ field
  | .invalidParameter field value => "invalid " ++ field ++ " '" ++ value ++ "'"
  | .unsupportedConnection chain connection =>
    chain.tag ++ " does not support " ++ connection.name ++ " connections"

/-- A node of a chain. -/
structure Endpoint where
  name : String
  url : String
  chain : Chain
  /-- the seconds between two polls -/
  refreshInterval : Nat := 5
  deriving DecidableEq, Repr, Inhabited

namespace Endpoint

/-- How the address of the endpoint is connected to. -/
def connection (e : Endpoint) : Except ConfigFault Connection :=
  match Url.parse e.url with
  | .error fault => .error (.invalidUrl e.url fault)
  | .ok u =>
    if u.scheme = "ws" ∨ u.scheme = "wss" then .ok .push
    else if u.scheme = "http" ∨ u.scheme = "https" then .ok .poll
    else .error (.unsupportedScheme u.scheme)

/-- An endpoint has a name that is not blank and an address that can be connected to. -/
def validate (e : Endpoint) : Except ConfigFault Unit :=
  if Blank.isBlankText e.name then .error .missingEndpointName else e.connection.map fun _ => ()

/-- The milliseconds between two polls: one second at least. -/
def refreshMillis (e : Endpoint) : Nat := 1000 * max e.refreshInterval 1

/-- Reads an endpoint. -/
def reader : Json.Reader Endpoint := fun depth t => do
  let r ← Json.Record.read? ["name", "url", "type", "refreshInterval"] depth t
  return {
    name := ← r.required "name" Json.Tree.string?
    url := ← r.required "url" Json.Tree.string?
    chain := ← r.required "type" (Json.Tree.tag? Chain.tags)
    refreshInterval := ← r.withDefault "refreshInterval" (Json.Tree.nat? 64) 5 }

/-- An endpoint as a value. -/
def toJson (e : Endpoint) : Json := .object
  [("name", .text e.name), ("url", .text e.url), ("type", .text e.chain.tag),
   ("refreshInterval", .nat e.refreshInterval)]

end Endpoint

/-- What is asked of the relay for one job. -/
structure Subscription where
  jobId : String
  /-- the name of the endpoint -/
  endpoint : String
  /-- the contracts that are watched -/
  addresses : List String := []
  /-- the oracle accounts that are watched -/
  accountIds : List String := []
  deriving DecidableEq, Repr, Inhabited

namespace Subscription

/-- Whether the subscription names what the chain of an endpoint asks for. -/
def validateFor (s : Subscription) (e : Endpoint) : Except ConfigFault Unit :=
  match e.validate with
  | .error fault => .error fault
  | .ok () =>
    match e.chain with
    | .substrate => if s.accountIds.isEmpty then .error (.missingParameter e.chain "accountIds") else .ok ()
    | .tezos | .ontology =>
      if s.addresses.isEmpty then .error (.missingParameter e.chain "addresses") else .ok ()
    | _ => .ok ()

/-- Reads a subscription. -/
def reader : Json.Reader Subscription := fun depth t => do
  let r ← Json.Record.read? ["jobId", "endpoint", "addresses", "accountIds"] depth t
  return {
    jobId := ← r.required "jobId" Json.Tree.string?
    endpoint := ← r.required "endpoint" Json.Tree.string?
    addresses := ← r.withDefault "addresses" (Json.Tree.list? Json.Tree.string?) []
    accountIds := ← r.withDefault "accountIds" (Json.Tree.list? Json.Tree.string?) [] }

/-- A subscription as a value. -/
def toJson (s : Subscription) : Json := .object
  [("jobId", .text s.jobId), ("endpoint", .text s.endpoint), ("addresses", Json.texts s.addresses),
   ("accountIds", Json.texts s.accountIds)]

end Subscription
end OracleRelay
