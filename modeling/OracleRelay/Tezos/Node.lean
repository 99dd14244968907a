/-
# Asking a Tezos node

The requests for the announcements of heads, for the operations of a block and for the script of a contract, and what
comes of them. Only the connection for announcements has a limit in time, not the announcements; a node that answers
with another status than success does not announce heads.

Key definitions: `Tezos.Node`, `Tezos.Node.headsRequest?`, `Tezos.Node.blockRequest?`, `Tezos.Node.scriptRequest?`,
`Tezos.Node.announced`, `Tezos.readValue`.
-/
import OracleRelay.Http.Exchange
import OracleRelay.Tezos.HeadLines

namespace OracleRelay
namespace Tezos

/-- A node at an address without slashes at its end. -/
structure Node where
  base : String
  deriving DecidableEq, Repr, Inhabited

namespace Node

/-- The node at an address. -/
def ofUrl (url : String) : Node := ⟨Url.withoutSlashes url⟩

/-- The request to announce heads. -/
def headsRequest? (n : Node) : Option Http.Request := Http.Request.get? (n.base ++ "/monitor/heads/main")

/-- The request for the operations of a block. -/
def blockRequest? (n : Node) (hash : String) : Option Http.Request :=
  Http.Request.get? (n.base ++ "/chains/main/blocks/" ++ hash ++ "/operations")

/-- How scripts are to be written. -/
def scriptForm : Json := .object [("unparsing_mode", .text "Optimized")]

/-- The request for the script of a contract. -/
def scriptRequest? (n : Node) (address : String) : Option Http.Request :=
  let url := n.base ++ "/chains/main/blocks/head/context/contracts/" ++ address ++ "/script/normalized"
  Http.Request.post? url scriptForm.render

/-- What a node announces, or why it does not. -/
def announced (n : Node) (ms : Nat) (x : Http.Exchange) :
    Except TransportFault (List (Except TransportFault String)) :=
  match x.reply with
  | .error lapse => .error (lapse.fault ms)
  | .ok r =>
    if r.status = 200 then
      .ok (headLines (r.pieces.map .ok ++ (r.lapse.map fun lapse => .error (lapse.fault ms)).toList))
    else if r.status = 400 then
      .error (.http (n.base ++ " returned 400. This endpoint may not support calls to /monitor"))
    else .error (.http ("unexpected status code " ++ Numeral.decimal r.status ++ " from endpoint " ++ n.base))

end Node

/-- The operations or the script in a reply. -/
def readValue (ms : Nat) (x : Http.Exchange) : Except TransportFault Json := x.read Json.Tree.value? ms

end Tezos
end OracleRelay
