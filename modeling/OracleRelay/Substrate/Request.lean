/-
# Requests on Substrate chains

Events that ask an oracle for a run of a job, the notices of changed storage that carry them, and the requests
that an adapter for some accounts and one job takes from a notice.

Key definitions: `OracleRequest`, `OracleRequest.ofRecord?`, `pairFields`, `StorageChanges`,
`StorageChanges.valuesOf`, `Watch`, `Watch.requestsIn`.
-/
import OracleRelay.Config.Endpoint
import OracleRelay.Request.Event
import OracleRelay.Substrate.Events

namespace OracleRelay
namespace Substrate

/-- An event that asks for a run of a job. -/
structure OracleRequest where
  oracle : List UInt8
  /-- the job -/
  specIndex : String
  requestId : Nat
  /-- names and values one after the other -/
  params : List String
  callback : String
  payment : Nat
  deriving DecidableEq, Repr, Inhabited

namespace OracleRequest

/-- The request in a record, if it is of the event and has its fields. -/
def ofRecord? (r : EventRecord) : Option OracleRequest :=
  if r.is "Chainlink" "OracleRequest" then
    match r.field? "oracle", r.field? "spec_index", r.field? "request_id", r.field? "bytes",
      r.field? "callback", r.field? "payment" with
    | some (.account oracle), some (.bytes spec), some (.u64 id), some (.vecBytes params), some (.bytes callback),
        some (.u128 payment) =>
      some ⟨oracle, Utf8.toStringLossy spec, id, params.map Utf8.toStringLossy, Utf8.toStringLossy callback, payment⟩
    | _, _, _, _, _, _ => none
  else none

end OracleRequest

/-- Puts values under the names before them. Even places hold names, odd ones values; empty strings are passed
over, and a name waits until a value comes. -/
def pairsFrom (isKey : Bool) (pending : Option String) (fields : Fields) : List String → Fields
  | [] => fields
  | s :: rest =>
    if s = "" then pairsFrom (!isKey) pending fields rest
    else if isKey then pairsFrom (!isKey) (some s) fields rest
    else match pending with
      | some k => pairsFrom (!isKey) none (fields.insert k (.text s)) rest
      | none => pairsFrom (!isKey) none fields rest

/-- The fields that names and values one after the other give. -/
def pairFields (items : List String) : Fields := pairsFrom true none {} items

/-- The fields that are sent to the job node. What the event says wins over what the requester named. -/
def OracleRequest.fields (r : OracleRequest) : Fields :=
  (pairFields r.params).merge
    [("payment", .text (Numeral.decimal r.payment)), ("request_id", .text (Numeral.decimal r.requestId)),
     ("function", .text r.callback), ("request_type", .text "runlog")]

/-- The storage key of the events of a block. -/
def eventsKey : String := "0x26aa394eea5630e07c48ae0c9558cef780d41e5e16056765bc8461851072c9d7"

/-- A notice that storage changed: keys with their new values, none for a deleted one. -/
structure StorageChanges where
  block : String
  changes : List (String × Option String) := []
  deriving DecidableEq, Repr, Inhabited

namespace StorageChanges

/-- Reads a change: a list of key and value. -/
def changeReader : Json.Reader (String × Option String)
  | depth, .array [k, v] =>
    if depth = 0 then none
    else do
      let key ← Json.Tree.string? (depth - 1) k
      match v with
      | .null => return (key, none)
      | v => return (key, some (← Json.Tree.string? (depth - 1) v))
  | _, _ => none

/-- Reads a notice. -/
def reader : Json.Reader StorageChanges := fun depth t => do
  let r ← Json.Record.read? ["block", "changes"] depth t
  return {
    block := ← r.required "block" Json.Tree.string?
    changes := ← r.withDefault "changes" (Json.Tree.list? changeReader) [] }

/-- Whether two texts are the same up to the case of letters. -/
def sameKey (a b : String) : Bool := a.toList.map Char.toLower = b.toList.map Char.toLower

/-- The values written under a key. Deleted ones and those that are not hexadecimal are left out. -/
def valuesOf (s : StorageChanges) (key : String) : List (List UInt8) :=
  s.changes.filterMap fun (k, v) =>
    if sameKey k key then v.bind fun data => (Hex.decode (Hex.stripMark data)).toOption else none

end StorageChanges

/-- The octets of an account given in hexadecimal. -/
def accountOf (id : String) : Except ConfigFault (List UInt8) :=
  match Hex.decode (Hex.stripMark id) with
  | .ok bs => if bs.length = wordLength then .ok bs else .error (.invalidParameter "accountIds" id)
  | .error _ => .error (.invalidParameter "accountIds" id)

/-- What an adapter watches: the requests of one job to some accounts. -/
structure Watch where
  jobId : String
  accounts : List (List UInt8)
  registry : EventRegistry
  deriving Inhabited

namespace Watch

/-- The watch of a subscription; each account must be one. -/
def ofAccounts (jobId : String) (accountIds : List String) (pallet : UInt8) : Except ConfigFault Watch :=
  (accountIds.mapM accountOf).map fun accounts => ⟨jobId, accounts, .runlog pallet⟩

/-- The requests of the job to the accounts in one stored value. -/
def requestsInValue (w : Watch) (bs : List UInt8) : List JobRequest :=
  match decodeEvents w.registry bs with
  | .error _ => []
  | .ok records => records.filterMap fun record =>
    match OracleRequest.ofRecord? record with
    | some r => if w.jobId = r.specIndex ∧ r.oracle ∈ w.accounts then some ⟨r.specIndex, r.fields⟩ else none
    | none => none

/-- The requests of the job to the accounts that a notice carries. -/
def requestsIn (w : Watch) (notice : Json) : List JobRequest :=
  match Json.readValue? StorageChanges.reader notice with
  | none => []
  | some changes => (changes.valuesOf eventsKey).flatMap w.requestsInValue

end Watch
end Substrate
end OracleRelay
