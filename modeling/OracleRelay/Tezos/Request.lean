/-
# Requests in the calls of a block

A request call puts the request into the big map of requests of the oracle that it reached. The script of the
oracle tells which big map that is and how the request is laid out.

Key definitions: `TezosFault`, `Tezos.requestOf`, `Tezos.requestsOf`, `Tezos.blockRequests`.
-/
import OracleRelay.Request.Fields
import OracleRelay.Rpc.Fault
import OracleRelay.Tezos.Operation

namespace OracleRelay

/-- Why a block or a call of it gives no request. -/
inductive TezosFault where
  | transport (fault : TransportFault)
  | expression (fault : MichelineFault)
  | unreadableBlock
  | missingDiff (bigMap : String)
  | missingField (name : String)
  deriving BEq, Repr

/-- The text of a fault. -/
def TezosFault.message : TezosFault → String
  | .transport fault => fault.message
  | .expression fault => fault.message
  | .unreadableBlock => "invalid block operations: not a list of operations"
  | .missingDiff bigMap => "no big_map_diff for big_map " ++ bigMap
  | .missingField name => "request has no string " ++ name ++ " field"

namespace Tezos

/-- The names of the fields of a request. -/
def idField : String := "id"
def jobIdField : String := "jobId"
def oracleAddressField : String := "oracleAddress"
def parametersField : String := "parameters"

/-- The values that a call stored for its request, and the key under which they are stored. -/
def storedRequest (call : Call) (script : Json) : Except TezosFault (Json × Json) :=
  match storageOf script with
  | .error e => .error (.expression e)
  | .ok (type, storage) =>
    match requestsBigMap type (.ofJson storage) with
    | .error e => .error (.expression e)
    | .ok bigMap =>
      match requestDiff? bigMap call.outcome.diffs with
      | none => .error (.missingDiff bigMap)
      | some diff =>
        match requestType type with
        | .error e => .error (.expression e)
        | .ok layout =>
          match layout.extract (.ofJson diff.value) with
          | .error e => .error (.expression e)
          | .ok values => .ok (values, diff.key)

/-- The request that a call stored, if it is one of the job; the script is that of the oracle that it reached. -/
def requestOf (jobId : String) (call : Call) (script : Json) : Except TezosFault (Option JobRequest) :=
  match storedRequest call script with
  | .error e => .error e
  | .ok (values, key) =>
    match (values.get? jobIdField).bind Json.text? with
    | none => .error (.missingField jobIdField)
    | some named =>
      if jobId ≠ named then .ok none
      else
        match (Micheline.ofJson key).value with
        | .error e => .error (.expression e)
        | .ok id => .ok (some ⟨named, .ofList
            [(parametersField, values.get parametersField), (jobIdField, .text named),
             (oracleAddressField, .text call.destination), (idField, id)]⟩)

/-- The request of a call, with what the node answers when it is asked for the script. A call that gives none is
passed over, whatever the reason. -/
def requestWith (jobId : String) (script : Except TransportFault Json) (call : Call) : Option JobRequest :=
  match script with
  | .error _ => none
  | .ok script => (requestOf jobId call script).toOption.join

/-- The requests of some calls, each with the answer to the question for its script. -/
def requestsOf (jobId : String) (script : String → Except TransportFault Json) (calls : List Call) :
    List JobRequest :=
  calls.filterMap fun call => requestWith jobId (script call.destination) call

/-- The request calls of a block to some oracles. -/
def blockCalls (oracles : List String) (block : Json) : Except TezosFault (List Call) :=
  match managerOperations block with
  | none => .error .unreadableBlock
  | some operations => .ok (requestCalls oracles operations)

/-- The requests that a block holds for a job. -/
def blockRequests (jobId : String) (oracles : List String) (script : String → Except TransportFault Json)
    (block : Json) : Except TezosFault (List JobRequest) :=
  (blockCalls oracles block).map (requestsOf jobId script)

end Tezos
end OracleRelay
