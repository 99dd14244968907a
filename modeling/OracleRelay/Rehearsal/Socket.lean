/-
# A node at the other end of a socket

The node goes through a list of actions on each connection that it is offered. A connection is dropped when its actions
are done; on the last one the node waits until everything it sent was read, and then the relay is told to stop. What
the node has read of the relay is recorded: as much as its actions ask for, and on the last connection all.

Key definitions: `Rehearsal.SocketAct`, `Rehearsal.Consumer`, `Rehearsal.Wire`, `Rehearsal.Wire.serve`,
`Rehearsal.subscribe`, `Rehearsal.callOnce`, `Rehearsal.tryConnection`, `Rehearsal.listen`, `Rehearsal.listenOn`.
-/
import OracleRelay.Push.Listener
import OracleRelay.Push.Subscriber

namespace OracleRelay
namespace Rehearsal

/-- What a node does on a connection. -/
inductive SocketAct where
  /-- read one message -/
  | expect
  | send (text : String)
  /-- send a frame without text -/
  | binary
  | pause (ms : Nat)
  /-- close the connection with a farewell -/
  | close
  /-- close it without one -/
  | drop
  /-- close it before it is open -/
  | refuse
  /-- never open it -/
  | stall
  deriving DecidableEq, Repr, Inhabited

/-- The fault of a connection that is at its end. -/
def lostConnection : TransportFault := .socket "the connection is closed"

/-- The milliseconds that the relay waits for an open connection, and for the first answer on it. -/
structure Patience where
  handshake : Nat := 5000
  answer : Nat := 5000

/-- Who takes results from a subscriber. -/
structure Consumer (γ : Type) where
  /-- whether it takes another one -/
  accepts : γ → Bool
  take : γ → Json → γ
  /-- whether it has ended and with it the subscriber -/
  ends : γ → Bool

/-- A subscriber with its consumer, and the state of the connection. -/
structure Wire (γ : Type) where
  subscriber : Push.Subscriber
  consumer : γ
  /-- the messages that the node has read -/
  read : Nat := 0
  /-- the milliseconds since the connection opened -/
  waited : Nat := 0

namespace Wire

variable {γ : Type}

/-- The messages that the relay has sent on the connection. -/
def sent (w : Wire γ) : List Rpc.Request := (w.subscriber.sessions.getLast?.map (·.sent)).getD []

/-- Whether the relay waits for the name of the subscription. -/
def isAwaiting (w : Wire γ) : Bool :=
  match w.subscriber.sessionPhase? with
  | some .awaitingAck => true
  | _ => false

/-- A step of the session, unless the consumer has ended. -/
def happen (c : Consumer γ) (w : Wire γ) (h : Push.Happening) : Wire γ :=
  if c.ends w.consumer then w else { w with subscriber := w.subscriber.step (.session h) }

/-- Hands the result that is ready to the consumer. -/
def hand (c : Consumer γ) (w : Wire γ) : Wire γ :=
  match w.subscriber.sessionPhase? with
  | some (.handing _ v) =>
    if c.accepts w.consumer then { w.happen c .taken with consumer := c.take w.consumer v } else w.happen c .deserted
  | _ => w

/-- An action of the node. A message that does not come keeps the node waiting until the relay gives up. -/
def act (c : Consumer γ) (patience : Patience) (w : Wire γ) : SocketAct → Wire γ
  | .expect =>
    if w.read < w.sent.length then { w with read := w.read + 1 }
    else if w.isAwaiting then w.happen c (.failed (.timeout patience.answer))
    else w
  | .send text => (w.happen c (.text text)).hand c
  | .binary => w.happen c .noise
  | .pause ms =>
    let w := { w with waited := w.waited + ms }
    if w.isAwaiting && patience.answer < w.waited then w.happen c (.failed (.timeout patience.answer)) else w
  | .close | .drop | .refuse => w.happen c (.failed lostConnection)
  | .stall => w.happen c (.failed (.timeout patience.handshake))

/-- Whether a node closes the connection by itself. -/
def closes (acts : List SocketAct) : Bool := acts.contains .close || acts.contains .drop

/-- Whether a connection never opens. -/
def neverOpens (acts : List SocketAct) : Bool := acts.head? = some .refuse || acts.head? = some .stall

/-- Goes through the actions on one connection. What comes with it is what the node has recorded. -/
def serve (c : Consumer γ) (patience : Patience) (last : Bool) (w : Wire γ) (acts : List SocketAct) :
    Wire γ × List Rpc.Request :=
  if w.subscriber.isOver || c.ends w.consumer then (w, [])
  else
    let fresh := { w with subscriber := w.subscriber.step .rested, read := 0, waited := 0 }
    let opened := if neverOpens acts then fresh else fresh.happen c .opened
    let played := acts.foldl (act c patience) opened
    let done := played.happen c (if last then .told else .failed lostConnection)
    (done, if last && !closes acts then done.sent else done.sent.take done.read)

/-- Goes through the connections in turn. -/
def serveAll (c : Consumer γ) (patience : Patience) : Wire γ → List (List SocketAct) → Wire γ × List (List Rpc.Request)
  | w, [] => (w, [])
  | w, acts :: rest =>
    let (served, received) := w.serve c patience rest.isEmpty acts
    let (final, others) := serveAll c patience served rest
    (final, received :: others)

end Wire

/-- A consumer that takes results as long as it wants more. -/
def collector (limit : Option Nat) : Consumer (List Json) where
  accepts taken := limit.all (taken.length < ·)
  take taken v := taken ++ [v]
  ends _ := false

/-- What the node has received on each connection, and what was handed on, when a subscriber runs. -/
def subscribe (spec : Push.Spec) (patience : Patience) (limit : Option Nat) (connections : List (List SocketAct)) :
    List (List Rpc.Request) × List Json :=
  let (w, received) := Wire.serveAll (collector limit) patience { subscriber := { spec }, consumer := [] } connections
  (received, w.consumer)

/-- The result of a call over a connection of its own: the first answer in what the node sends. With it comes how many
messages the node has read. -/
def answerOn (patience : Nat) (last : Bool) :
    List SocketAct → Nat → Nat → Except TransportFault Json × Nat
  | [], read, _ => (.error (if last then .timeout patience else lostConnection), read)
  | act :: rest, read, waited =>
    match act with
    | .expect => if read = 0 then answerOn patience last rest 1 waited else (.error (.timeout patience), read)
    | .send text =>
      match Push.Session.answerIn text with
      | some answer => (answer, if rest.contains .expect then 1 else read)
      | none => answerOn patience last rest read waited
    | .binary => answerOn patience last rest read waited
    | .pause ms =>
      if patience < waited + ms then (.error (.timeout patience), if rest.contains .expect then 1 else read)
      else answerOn patience last rest read (waited + ms)
    | .stall => (.error (.timeout patience), read)
    | _ => (.error lostConnection, read)

/-- A call over a connection of its own: its result and what the node has received. -/
def callOnce (call : Rpc.Call) (patience : Nat) (last : Bool) (acts : List SocketAct) :
    Except TransportFault Json × List Rpc.Request :=
  let (result, read) := answerOn patience last acts 0 0
  let sent := if Wire.neverOpens acts then [] else [call.request Push.subscribeId]
  (result, if last && !Wire.closes acts then sent else sent.take read)

/-- A connection that is opened and closed again. -/
def tryConnection (patience : Nat) (acts : List SocketAct) : Except TransportFault Unit :=
  match acts.head? with
  | some .refuse => .error lostConnection
  | some .stall => .error (.timeout patience)
  | _ => .ok ()

/-- Lets a listener hand on what it has on offer. -/
def unload (read : Json → List ChainEvent) (deserted : Bool) :
    Nat → Adapter.Running Push.Listener → Adapter.Running Push.Listener
  | 0, r => r
  | n + 1, r =>
    match r.state.phase with
    | .handing .. => unload read deserted n (r.poll (Push.Listener.wait read) (if deserted then .deserted else .room))
    | _ => r

/-- A listener that takes notifications and hands on their events to a sink that may be deserted. -/
def listenerConsumer (read : Json → List ChainEvent) (deserted : Bool) : Consumer (Adapter.Running Push.Listener) where
  accepts _ := true
  take r v := unload read deserted ((read v).length + 1) (r.poll (Push.Listener.wait read) (.reply fun _ => some v))
  ends r := r.ended

/-- A run of an adapter of a node that pushes: how the trial of the connection went, what the node received on each
connection, and the adapter at the end. -/
structure PushRun where
  trial : Option (Except AdapterFault Unit)
  received : List (List Rpc.Request)
  adapter : Adapter.Running Push.Listener

/-- How an adapter tries a connection: a result, and what the node received. -/
abbrev Trial : Type := List SocketAct → Except TransportFault Unit × List Rpc.Request

/-- Runs an adapter on some connections. -/
def listenOn (patience : Patience) (spec : Push.Spec) (read : Json → List ChainEvent) (deserted : Bool)
    (connections : List (List SocketAct)) : PushRun :=
  let (w, received) := Wire.serveAll (listenerConsumer read deserted) patience
    { subscriber := { spec }, consumer := { state := {} } } connections
  ⟨none, received, w.consumer⟩

/-- Runs an adapter, after a trial on the first connection if there is to be one. -/
def listen (spec : Push.Spec) (read : Json → List ChainEvent) (trial : Option Trial) (deserted : Bool)
    (connections : List (List SocketAct)) : PushRun :=
  match trial with
  | none => listenOn {} spec read deserted connections
  | some attempt =>
    let (verdict, first) := attempt (connections.headD [])
    let run := listenOn {} spec read deserted connections.tail
    { run with trial := some (verdict.mapError .transport), received := first :: run.received }

/-- The trial of an adapter for EVM chains: the connection is opened. -/
def openTrial (patience : Patience) : Trial := fun acts => (tryConnection patience.handshake acts, [])

/-- The trial of an adapter for Substrate chains: a call goes over the connection. -/
def headerTrial (patience : Patience) : Trial := fun acts =>
  let (result, received) := callOnce Substrate.headerCall patience.handshake false acts
  (result.map fun _ => (), received)

end Rehearsal
end OracleRelay
