/-
# Operations of a block

What a Tezos node says about the operations of a block, as far as the relay reads it. Transactions are in the pass
of manager operations; the calls of contracts that a transaction makes stand under its metadata, each with the
changes that it made to big maps. A contract's script gives the type and the value of its storage.

Key definitions: `Operation`, `managerOperations`, `Content.requestCalls`, `requestDiff?`, `storageOf`, `HeadLine`.
-/
import OracleRelay.Json.Record
import OracleRelay.Tezos.Micheline

namespace OracleRelay
namespace Tezos

/-- A change of a big map. -/
structure BigMapDiff where
  action : String := ""
  bigMap : Json := .null
  key : Json := .null
  value : Json := .null
  deriving Inhabited

/-- The outcome of an operation. -/
structure Outcome where
  status : String := ""
  diffs : List BigMapDiff := []
  deriving Inhabited

/-- A call that a transaction makes. -/
structure Call where
  destination : String := ""
  entrypoint : String := ""
  outcome : Outcome := {}
  deriving Inhabited

/-- One content of an operation. -/
structure Content where
  kind : String := ""
  outcome : Outcome := {}
  calls : List Call := []
  deriving Inhabited

/-- An operation of a block. -/
structure Operation where
  hash : String := ""
  contents : List Content := []
  deriving Inhabited

/-- Reads a change of a big map. -/
def BigMapDiff.reader : Json.Reader BigMapDiff := fun depth t => do
  let r ← Json.Record.read? ["action", "big_map", "key", "value"] depth t
  return {
    action := ← r.withDefault "action" Json.Tree.string? ""
    bigMap := ← r.withDefault "big_map" Json.Tree.value? .null
    key := ← r.withDefault "key" Json.Tree.value? .null
    value := ← r.withDefault "value" Json.Tree.value? .null }

/-- Reads an outcome. -/
def Outcome.reader : Json.Reader Outcome := fun depth t => do
  let r ← Json.Record.read? ["status", "big_map_diff"] depth t
  return {
    status := ← r.withDefault "status" Json.Tree.string? ""
    diffs := ← r.withDefault "big_map_diff" (Json.Tree.list? BigMapDiff.reader) [] }

/-- Reads the name of the entry point from the parameters of a call. -/
def entrypointReader : Json.Reader String := fun depth t => do
  let r ← Json.Record.read? ["entrypoint", "value"] depth t
  let entrypoint ← r.withDefault "entrypoint" Json.Tree.string? ""
  let _ ← r.withDefault "value" Json.Tree.value? .null
  return entrypoint

/-- Reads a call. -/
def Call.reader : Json.Reader Call := fun depth t => do
  let r ← Json.Record.read? ["destination", "parameters", "result"] depth t
  return {
    destination := ← r.withDefault "destination" Json.Tree.string? ""
    entrypoint := ← r.withDefault "parameters" entrypointReader ""
    outcome := ← r.withDefault "result" Outcome.reader {} }

/-- Reads the metadata of a content: its outcome and the calls that it made. -/
def metadataReader : Json.Reader (Outcome × List Call) := fun depth t => do
  let r ← Json.Record.read? ["operation_result", "internal_operation_results"] depth t
  return (← r.withDefault "operation_result" Outcome.reader {},
    ← r.withDefault "internal_operation_results" (Json.Tree.list? Call.reader) [])

/-- Reads a content. -/
def Content.reader : Json.Reader Content := fun depth t => do
  let r ← Json.Record.read? ["kind", "metadata"] depth t
  let kind ← r.withDefault "kind" Json.Tree.string? ""
  let (outcome, calls) ← r.withDefault "metadata" metadataReader ({}, [])
  return { kind, outcome, calls }

/-- Reads an operation. -/
def Operation.reader : Json.Reader Operation := fun depth t => do
  let r ← Json.Record.read? ["hash", "contents"] depth t
  return {
    hash := ← r.withDefault "hash" Json.Tree.string? ""
    contents := ← r.withDefault "contents" (Json.Tree.list? Content.reader) [] }

/-- The place of manager operations among the passes of a block. -/
def managerPass : Nat := 3

/-- The manager operations of a block; none at all where the block has no such pass. -/
def managerOperations (block : Json) : Option (List Operation) :=
  match block.item? managerPass with
  | none => some []
  | some pass => Json.readValue? (Json.Tree.list? Operation.reader) pass

/-- The status of an operation that took effect. -/
def applied : String := "applied"

/-- The entry points through which a request can arrive. -/
def requestEntrypoints : List String := ["create_request", "on_token_transfer"]

/-- Whether a call reached one of the oracles through a request entry point and took effect. -/
def Call.isRequest (c : Call) (oracles : List String) : Bool :=
  requestEntrypoints.contains c.entrypoint && c.outcome.status = applied && oracles.contains c.destination

/-- The request calls of a content that itself took effect. -/
def Content.requestCalls (c : Content) (oracles : List String) : List Call :=
  if c.outcome.status = applied then c.calls.filter (·.isRequest oracles) else []

/-- The request calls of operations in their order. -/
def requestCalls (oracles : List String) (operations : List Operation) : List Call :=
  operations.flatMap fun o => o.contents.flatMap (·.requestCalls oracles)

/-- The change that put a value into a big map. -/
def requestDiff? (bigMap : String) (diffs : List BigMapDiff) : Option BigMapDiff :=
  diffs.find? fun d => d.bigMap.plainText = bigMap && (d.action = "alloc" || d.action = "update")

/-- Whether a part of a script declares the storage. -/
def isStorage (part : Json) : Bool := (part.get? "prim").bind Json.text? = some "storage"

/-- The type and the value of the storage in a script. -/
def storageOf (script : Json) : Except MichelineFault (Micheline × Json) :=
  match ((((script.get "code").array?.getD []).find? isStorage).bind (·.get? "args")).bind (·.item? 0) with
  | none => .error (.notAnnotated "storage")
  | some type =>
    match Micheline.ofJson type with
    | .unreadable _ => .error .unreadable
    | type => .ok (type, script.get "storage")

/-- The annotation of the big map that holds requests. -/
def requestsAnnotation : String := "%requests"

/-- The type of the values in the big map of requests. -/
def requestType (storageType : Micheline) : Except MichelineFault Micheline :=
  match storageType.find requestsAnnotation with
  | .error e => .error e
  | .ok bigMap => bigMap.argument 1

/-- The id of the big map of requests, as the storage names it. -/
def requestsBigMap (storageType storage : Micheline) : Except MichelineFault String :=
  match storageType.extract storage with
  | .error e => .error e
  | .ok values =>
    match values.get? "requests" with
    | some v => .ok (v.plainText)
    | none => .error (.notAnnotated requestsAnnotation)

/-- A line that names a new block. -/
structure HeadLine where
  hash : String := ""
  level : Option Nat := none
  deriving DecidableEq, Repr, Inhabited

/-- Reads a line. -/
def HeadLine.reader : Json.Reader HeadLine := fun depth t => do
  let r ← Json.Record.read? ["hash", "level"] depth t
  return {
    hash := ← r.withDefault "hash" Json.Tree.string? ""
    level := ← r.optionalOrBeyond "level" (Json.Tree.nat? 64) }

end Tezos
end OracleRelay
