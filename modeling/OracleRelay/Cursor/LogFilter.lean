/-
# Filters of log queries

A query for logs names contracts, topics, and either one block or a range. Building the argument of a query
leaves the filter as it is.

Key definitions: `LogFilter`, `LogFilter.runlog`, `LogFilter.argument`, `LogFilter.Conflict`.
-/
import OracleRelay.Cursor.Tracker
import OracleRelay.Json.Value
import OracleRelay.Request.JobId

namespace OracleRelay

/-- What an unset lower bound stands for. -/
inductive QueryMode where
  /-- the start of the chain -/
  | scan
  /-- the tip of the chain -/
  | tip
  deriving DecidableEq, Repr

/-- A filter of logs. -/
structure LogFilter where
  addresses : List String
  /-- the alternatives for each topic in turn -/
  topics : List (List String)
  blockHash : Option String := none
  /-- the upper bound; unset stands for the tip of the chain -/
  upper : String := ""
  range : Tracker
  deriving DecidableEq, Repr, Inhabited

namespace LogFilter

/-- A block is asked for together with a range of this kind. -/
structure Conflict where
  kind : RangeKind
  deriving DecidableEq, Repr

/-- The text of a conflict. -/
def Conflict.message (c : Conflict) : String :=
  "cannot specify both blockHash and " ++ c.kind.fromKey ++ "/" ++ c.kind.toKey

/-- The topic of logs that hold an oracle request. -/
def requestTopic : String := "0xd8d7ecc4800d25fa53ce0372f13a416d98907a7ef3d8d3bdd79cf4fe75529c65"

/-- The filter for the requests of one job. -/
def runlog (kind : RangeKind) (jobId : String) (addresses : List String) : LogFilter :=
  { addresses, topics := [[requestTopic], [JobId.topic jobId]], range := { kind } }

/-- The lower bound that a query sends. -/
def lower (f : LogFilter) (mode : QueryMode) : String :=
  if f.range.isUnset then
    match mode with
    | .scan => f.range.kind.genesis
    | .tip => f.range.kind.latest
  else f.range.bound

/-- The bound members of the argument. -/
def bounds (f : LogFilter) (mode : QueryMode) : Except Conflict (List (String × Json)) :=
  match f.blockHash with
  | some hash =>
    if !f.range.isUnset || f.upper ≠ "" then .error ⟨f.range.kind⟩ else .ok [("blockHash", .text hash)]
  | none => .ok
    [(f.range.kind.fromKey, .text (f.lower mode)),
     (f.range.kind.toKey, .text (if f.upper = "" then f.range.kind.latest else f.upper))]

/-- The argument of a query. -/
def argument (f : LogFilter) (mode : QueryMode) : Except Conflict Json :=
  (f.bounds mode).map fun bounds => Json.ofMembers
    ([("address", Json.texts f.addresses), ("topics", .array (f.topics.map Json.texts))] ++ bounds)

end LogFilter
end OracleRelay
