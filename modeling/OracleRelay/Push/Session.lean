/-
# A session over a socket

A session opens a connection and asks for a subscription; once the node has named the subscription, the session
hands its notifications on, one at a time. It ends when it is told to stop, when nobody takes notifications any
more, or when the connection fails. To be told to stop comes before all else at every wait; a session that has a
subscription then asks the node to end it.

Key definitions: `Push.Spec`, `Push.Session`, `Push.Happening`, `Push.Session.ackOf`, `Push.Session.resultOf`,
`Push.Session.step`.
-/
import OracleRelay.Rpc.Fault

namespace OracleRelay
namespace Push

/-- What is subscribed to, and how the subscription is ended. -/
structure Spec where
  method : String
  params : List Json := []
  /-- called with the name of the subscription -/
  unsubscribe : String
  deriving Inhabited

/-- The ids of the two requests of a session. -/
def subscribeId : Nat := 1
def unsubscribeId : Nat := 2

/-- The request for the subscription. -/
def Spec.subscribeRequest (spec : Spec) : Rpc.Request := Rpc.Call.request ⟨spec.method, spec.params⟩ subscribeId

/-- The request that ends a subscription. -/
def Spec.unsubscribeRequest (spec : Spec) (id : String) : Rpc.Request :=
  Rpc.Call.request ⟨spec.unsubscribe, [.text id]⟩ unsubscribeId

/-- How a session ended. -/
inductive Ending where
  | stopped
  /-- nobody takes notifications any more -/
  | deserted
  | failed (fault : TransportFault)
  deriving Inhabited

namespace Session

/-- Where a session stands. -/
inductive Phase where
  | connecting
  | awaitingAck
  | subscribed (id : String)
  /-- with the result of a notification for the consumer -/
  | handing (id : String) (result : Json)
  | over (ending : Ending)
  deriving Inhabited

end Session

/-- A session with what it has sent and handed on. -/
structure Session where
  phase : Session.Phase := .connecting
  /-- whether the node has named the subscription -/
  acked : Bool := false
  sent : List Rpc.Request := []
  handed : List Json := []
  deriving Inhabited

/-- What can happen to a session. -/
inductive Happening where
  /-- the connection is open -/
  | opened
  /-- a frame with text has come -/
  | text (s : String)
  /-- a frame without text has come -/
  | noise
  /-- the connection broke or was closed, or an answer did not come in time -/
  | failed (fault : TransportFault)
  /-- the consumer has taken a result -/
  | taken
  /-- the consumer is gone -/
  | deserted
  /-- the session is told to stop -/
  | told
  deriving Inhabited

namespace Session

/-- The result of the first request of a connection, if a text is the response to it. -/
def answerIn (s : String) : Option (Except TransportFault Json) :=
  match Json.readText? Rpc.Response.reader s with
  | none => none
  | some response => if response.id = .number subscribeId then some response.value else none

/-- The name that a result gives to a subscription. -/
def nameOf : Json → Except TransportFault String
  | .text id => .ok id
  | .number n => .ok (Json.number n).render
  | v => .error (.unexpected ("subscription id " ++ v.render))

/-- The name of the subscription, if a text is the response to the request for it. -/
def ackOf (s : String) : Option (Except TransportFault String) := (answerIn s).map (·.bind nameOf)

/-- The result in a text, if it is a notification for the subscription. -/
def resultOf (id s : String) : Option Json :=
  match Json.readText? Rpc.Notification.reader s with
  | none => none
  | some n => if n.subscriptionId = id then some n.result else none

/-- The session in another phase. -/
def enter (s : Session) (phase : Phase) : Session := { s with phase }

/-- The session after it sent a request. -/
def send (s : Session) (request : Rpc.Request) : Session := { s with sent := s.sent ++ [request] }

/-- The session at its end. -/
def finish (s : Session) (ending : Ending) : Session := s.enter (.over ending)

/-- Whether the session has ended. -/
def isOver (s : Session) : Bool :=
  match s.phase with
  | .over _ => true
  | _ => false

/-- What a session does. What does not fit where it stands changes nothing. -/
def step (spec : Spec) (s : Session) (h : Happening) : Session :=
  match s.phase, h with
  | .over _, _ => s
  | .connecting, .told | .awaitingAck, .told => s.finish .stopped
  | .subscribed id, .told | .handing id _, .told => (s.send (spec.unsubscribeRequest id)).finish .stopped
  | .connecting, .failed fault | .awaitingAck, .failed fault | .subscribed _, .failed fault =>
    s.finish (.failed fault)
  | .connecting, .opened => (s.send spec.subscribeRequest).enter .awaitingAck
  | .awaitingAck, .text t =>
    match ackOf t with
    | none => s
    | some (.ok id) => { s with acked := true, phase := .subscribed id }
    | some (.error fault) => s.finish (.failed fault)
  | .subscribed id, .text t =>
    match resultOf id t with
    | none => s
    | some result => s.enter (.handing id result)
  | .handing id result, .taken => { s with handed := s.handed ++ [result], phase := .subscribed id }
  | .handing _ _, .deserted => s.finish .deserted
  | _, _ => s

end Session
end Push
end OracleRelay
