/-
# A node that answers requests over HTTP

Each request takes the next reply of the script and is recorded. When no reply is left, a request stays without an
answer and is not recorded.

Key definitions: `Rehearsal.HttpNode`, `Rehearsal.HttpNode.take`, `Rehearsal.callNode`, `Rehearsal.headsNode`.
-/
import OracleRelay.Rehearsal.Stage
import OracleRelay.Rpc.Post
import OracleRelay.Tezos.Monitor
import OracleRelay.Tezos.Node

namespace OracleRelay
namespace Rehearsal

/-- The replies that are left, the requests that were recorded, and what the relay keeps of its talk with the node. -/
structure HttpNode where
  replies : List Http.Reply
  requests : List Http.Request := []
  /-- the id of the next call -/
  nextId : Nat := 1
  /-- the lines of the announcements that are open -/
  lines : List (Except TransportFault String) := []
  deriving Inhabited

namespace HttpNode

/-- What a request comes to. -/
def exchange (n : HttpNode) (request : Option Http.Request) : Http.Exchange :=
  Http.exchange request fun _ => n.replies.head?.elim (.unanswered .late) .replied

/-- The node after a request. -/
def take (n : HttpNode) (request : Option Http.Request) : HttpNode :=
  if n.replies.isEmpty then n
  else match request with
    | some r => { n with replies := n.replies.tail, requests := n.requests ++ [r] }
    | none => n

end HttpNode

/-- A question that is not noted and takes no time. -/
def silentCue : Cue := { noted := false }

/-- The posted request for a call. -/
def postOf (url : String) (n : HttpNode) (call : Rpc.Call) : Option Http.Request := (call.request n.nextId).post? url

/-- The node at an address, for adapters that call methods and wait so many milliseconds. -/
def callNode (url : String) (ms : Nat) : Node Rpc.Call (fun _ => Except TransportFault Json) HttpNode where
  answer n call := Rpc.resultOf ms (n.exchange (postOf url n call))
  cue _ _ := silentCue
  next n call := { n.take (postOf url n call) with nextId := n.nextId + 1 }

/-- The request for the answer to a question. A line of announcements that are open needs none. -/
def requestFor (node : Tezos.Node) : Tezos.Question → Option Http.Request
  | .heads => node.headsRequest?
  | .line => none
  | .block hash => node.blockRequest? hash
  | .script address => node.scriptRequest? address

/-- What a node announces in reply to a request. -/
def announcedBy (node : Tezos.Node) (ms : Nat) (n : HttpNode) :
    Except TransportFault (List (Except TransportFault String)) :=
  node.announced ms (n.exchange node.headsRequest?)

/-- The node at an address, for adapters that follow heads and wait so many milliseconds. -/
def headsNode (url : String) (ms : Nat) : Node Tezos.Question Tezos.Question.Answer HttpNode :=
  let node := Tezos.Node.ofUrl url
  { answer := fun n question => match question with
      | .heads => (announcedBy node ms n).map fun _ => ()
      | .line => n.lines.head?
      | .block hash => Tezos.readValue ms (n.exchange (node.blockRequest? hash))
      | .script address => Tezos.readValue ms (n.exchange (node.scriptRequest? address))
    cue := fun _ _ => silentCue
    next := fun n question => match question with
      | .heads => { n.take node.headsRequest? with lines := (announcedBy node ms n).toOption.getD [] }
      | .line => { n with lines := n.lines.tail }
      | question => n.take (requestFor node question) }

end Rehearsal
end OracleRelay
