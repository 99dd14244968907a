/-
# Rehearsing the whole relay

The relay starts what its store holds, against nodes on ports of the own machine and a job node on a port of its own.
Sockets go through their actions first; then the adapters that ask over HTTP take their turns, and the clock moves on
only as long as fewer requests were delivered or dropped than are waited for. In the end all is shut down.

Key definitions: `Rehearsal.NodeScript`, `Rehearsal.Worker`, `Rehearsal.Relay`, `Rehearsal.Relay.begin`,
`Rehearsal.Relay.goOn`, `Rehearsal.runRelay`.
-/
import OracleRelay.Rehearsal.HttpNode
import OracleRelay.Rehearsal.Office
import OracleRelay.Rehearsal.Socket
import OracleRelay.Service.Manager
import OracleRelay.Service.Pump
import OracleRelay.Trigger.Client

namespace OracleRelay
namespace Rehearsal

/-- The job node as the relay reaches it: the replies that are left before all goes well, and the requests for runs
that came. -/
structure RunsNode where
  client : TriggerClient
  /-- whether somebody is there -/
  isThere : Bool
  replies : List Http.Reply := []
  runs : List Http.Request := []

/-- The job node that is asked over HTTP. -/
def RunsNode.node : JobNode RunsNode where
  reply n jobId body := { outcome := TriggerClient.outcome (Http.exchange (n.client.request? jobId body) fun _ =>
    if n.isThere then .replied (n.replies.headD { status := 200 }) else .refused) }
  next n jobId body := match n.client.request? jobId body with
    | some r => if n.isThere then { n with replies := n.replies.tail, runs := n.runs ++ [r] } else n
    | none => n

/-- What a node does on the connections that are left, with what it has received on those before; or what it replies,
with the requests that it has recorded. -/
inductive NodeScript where
  | sockets (left : List (List SocketAct)) (received : List (List Rpc.Request))
  | http (node : HttpNode)

/-- What a node has recorded in the end. -/
inductive NodeRecord where
  | sockets (received : List (List Rpc.Request))
  | http (requests : List Http.Request)

/-- The stage of an adapter that asks over HTTP. -/
inductive Worker where
  | poll (stage : Stage Rpc.Call Evm.Poller HttpNode) (period : Nat)
  | scan (stage : Stage Rpc.Call Ontology.Scanner HttpNode)
  | follow (stage : Stage Tezos.Question Tezos.Monitor HttpNode)

/-- When an adapter can take its next turn; never, if it waits for an answer that does not come. -/
def Stage.due? {Ask : Type} {Answer : Ask → Type} {σ : Type} (loop : Adapter.Loop Ask Answer σ) (period : Nat)
    (isFree : Ask → Bool) (s : Stage Ask σ HttpNode) : Option Nat :=
  match loop s.adapter.state with
  | .ended => none
  | .tick _ => some (s.beatTimes period).1
  | .pause ms _ => some (s.now + ms)
  | .offer _ _ => some s.now
  | .ask question _ _ => if isFree question || !s.script.replies.isEmpty then some s.now else none

namespace Worker

/-- Whether a question needs no request. -/
def isFree : Tezos.Question → Bool
  | .line => true
  | _ => false

/-- When the adapter can take its next turn. -/
def due? : Worker → Option Nat
  | .poll stage period => stage.due? Evm.Poller.wait period fun _ => false
  | .scan stage => stage.due? Ontology.Scanner.wait Ontology.scanMillis fun _ => false
  | .follow stage => stage.due? Tezos.Monitor.wait 0 isFree

/-- The next turn of the adapter, whose node is at an address. -/
def turn (url : String) (ms : Nat) : Worker → Worker
  | .poll stage period => .poll (stage.turn Evm.Poller.wait (callNode url ms) (·.seen) period) period
  | .scan stage => .scan (stage.turn Ontology.Scanner.wait (callNode url ms) (·.seen) Ontology.scanMillis)
  | .follow stage => .follow (stage.turn Tezos.Monitor.wait (headsNode url ms) (·.seen) 0)

/-- The events that the sink has taken. -/
def taken : Worker → List ChainEvent
  | .poll stage _ => stage.adapter.taken
  | .scan stage => stage.adapter.taken
  | .follow stage => stage.adapter.taken

/-- Whether the adapter has seen its source alive. -/
def seen : Worker → Bool
  | .poll stage _ => stage.adapter.state.seen
  | .scan stage => stage.adapter.state.seen
  | .follow stage => stage.adapter.state.seen

/-- The requests that the node has recorded. -/
def requests : Worker → List Http.Request
  | .poll stage _ => stage.script.requests
  | .scan stage => stage.script.requests
  | .follow stage => stage.script.requests

end Worker

/-- A started job whose adapter asks over HTTP. -/
structure HttpJob where
  jobId : String
  port : Nat
  url : String
  worker : Worker

/-- The relay and what is around it. -/
structure Relay where
  settings : Settings
  manager : Manager
  office : Office RunsNode
  /-- the nodes by port -/
  nodes : List (Nat × NodeScript)
  jobs : List HttpJob := []
  /-- the jobs with a socket whose sources were seen alive -/
  seen : List String := []

namespace Relay

/-- The port of the job node. -/
def runsPort : Nat := 6688

/-- The port that an address names. -/
def portOf (url : String) : Nat := ((Url.parse url).toOption.bind (·.port)).getD 0

/-- The milliseconds that a node has for an answer over HTTP. -/
def askMillis (r : Relay) : Nat := r.settings.dispatch.requestTimeout * 1000

/-- How long the relay waits at a socket. -/
def patience (r : Relay) : Patience := ⟨r.settings.socket.handshakeTimeout * 1000, r.settings.socket.ackTimeout * 1000⟩

/-- The relay before its start. A rest between attempts takes some time in any case. -/
def ofSettings (settings : Settings) (snapshot : Snapshot) (nodes : List (Nat × NodeScript))
    (replies : List Http.Reply) : Relay :=
  let client : TriggerClient := ⟨settings.nodeUrl, settings.accessKey, settings.secret⟩
  { settings, nodes
    manager := { substrate := settings.substrate, store := .ofSnapshot snapshot }
    office := {
      node := RunsNode.node
      script := { client, isThere := portOf settings.nodeUrl = runsPort, replies }
      dispatcher := { limit := settings.dispatch.maxAttempts }
      restMillis := max 1 (settings.dispatch.retryDelay * 1000) } }

/-- Hands the requests in events to the dispatcher, through the pump of a job. -/
def pump (r : Relay) (jobId : String) (es : List ChainEvent) : Relay :=
  { r with office := (es.foldl Pump.pass { jobId }).handed.foldl (fun o q => o.send jobId q) r.office }

/-- The relay after a node went on in its script. -/
def put (r : Relay) (port : Nat) (script : NodeScript) : Relay :=
  { r with nodes := r.nodes.map fun (p, s) => (p, if p = port then script else s) }

/-- How the test of a connection went, and what happens when it went well. -/
abbrev Trialed : Type := Except AdapterFault (Relay → Relay)

/-- Tries a socket, and lets the adapter run on the connections after the first. -/
def trySocket (r : Relay) (port : Nat) (trial : Trial) (spec : Push.Spec) (read : Json → List ChainEvent)
    (jobId : String) : Relay × Trialed :=
  match r.nodes.lookup port with
  | some (.sockets (first :: rest) received) =>
    let (verdict, sent) := trial first
    match verdict with
    | .error fault => (r.put port (.sockets rest (received ++ [sent])), .error (.transport fault))
    | .ok () =>
      let run := listenOn r.patience spec read false rest
      (r.put port (.sockets [] (received ++ sent :: run.received)), .ok fun r =>
        { r with seen := if run.adapter.state.seen then r.seen ++ [jobId] else r.seen }.pump jobId run.adapter.taken)
  | _ => (r, .error (.transport lostConnection))

/-- Tries a node over HTTP with one question, and lets the adapter that comes of it take its turns. -/
def tryHttp {Ask σ : Type} {Answer : Ask → Type} (r : Relay) (port : Nat) (url jobId : String)
    (node : Node Ask Answer HttpNode) (question : Ask) (judge : Answer question → Except AdapterFault σ)
    (worker : Stage Ask σ HttpNode → Worker) : Relay × Trialed :=
  match r.nodes.lookup port with
  | some (.http state) =>
    let start := { state with nextId := 1, lines := [] }
    let after := node.next start question
    match judge (node.answer start question) with
    | .error fault => (r.put port (.http after), .error fault)
    | .ok state => (r.put port (.http { after with replies := [] }), .ok fun r =>
      { r with jobs := r.jobs ++ [⟨jobId, port, url, worker
          { adapter := { state }, script := { after with lines := [] } }⟩] })
  | _ => (r, .error (.transport .broken))

/-- Tries the connection that a plan asks for. -/
def attempt (r : Relay) (s : Subscription) (e : Endpoint) (plan : Plan) : Relay × Trialed :=
  let port := portOf e.url
  match plan with
  | .evmPush flavor spec => r.trySocket port (openTrial r.patience) spec (Evm.pushedEvents flavor) s.jobId
  | .substratePush watch =>
    r.trySocket port (headerTrial r.patience) Substrate.pushSpec (Substrate.pushedEvents watch) s.jobId
  | .evmPoll poller period =>
    r.tryHttp port e.url s.jobId (callNode e.url r.askMillis) poller.headCall poller.seeded (.poll · period)
  | .ontologyScan scanner =>
    r.tryHttp port e.url s.jobId (callNode e.url r.askMillis) Ontology.countCall
      (fun reply => ((Ontology.tipOf reply).mapError .transport).map fun _ => scanner) .scan
  | .tezosMonitor monitor =>
    r.tryHttp port e.url s.jobId (headsNode e.url r.askMillis) .heads
      (fun reply => (reply.mapError .transport).map fun _ => monitor) .follow

/-- Adds a subscription: the manager decides whether it starts. -/
def begin (r : Relay) (s : Subscription) (e : Endpoint) : Relay × Manager.Verdict :=
  match if r.manager.isActive s.jobId then none else (Plan.make r.manager.substrate s e).toOption with
  | none => let (manager, verdict) := r.manager.add {} s e; ({ r with manager }, verdict)
  | some plan =>
    let (r, trial) := r.attempt s e plan
    let (manager, verdict) := r.manager.add { trial := trial.map fun _ => () } s e
    let r := { r with manager }
    (match trial with
      | .ok start => start r
      | .error _ => r, verdict)

/-- The requests that were delivered or dropped. -/
def doneCount (r : Relay) : Nat := r.office.dispatcher.delivered + r.office.dispatcher.failed

/-- The next turn of a job. What its adapter passes on goes to the dispatcher. -/
def turn (r : Relay) (i : Nat) (job : HttpJob) : Relay :=
  let worker := job.worker.turn job.url r.askMillis
  { r with jobs := r.jobs.set i { job with worker } }.pump job.jobId (worker.taken.drop job.worker.taken.length)

/-- The job that can take its turn first, with its place and time. -/
def nextJob (r : Relay) : Option (Nat × Nat × HttpJob) :=
  r.jobs.zipIdx.foldl (fun best (job, i) =>
    match job.worker.due?, best with
    | some time, none => some (time, i, job)
    | some time, some (least, _, _) => if time < least then some (time, i, job) else best
    | none, _ => best) none

/-- Goes on for so many turns, or until nothing can happen any more. Once enough requests were delivered or dropped,
the clock does not move on. -/
def goOn (enough : Nat) : Nat → Relay → Relay
  | 0, r => r
  | turns + 1, r =>
    let mayWait (time : Nat) : Bool := time ≤ r.office.now || r.doneCount < enough
    match r.nextJob, r.office.alarms.head? with
    | some (time, i, job), some alarm =>
      if alarm.due < time then
        if mayWait alarm.due then goOn enough turns { r with office := r.office.ring } else r
      else if mayWait time then goOn enough turns ({ r with office := r.office.advanceTo time }.turn i job) else r
    | some (time, i, job), none =>
      if mayWait time then goOn enough turns ({ r with office := r.office.advanceTo time }.turn i job) else r
    | none, some alarm => if mayWait alarm.due then goOn enough turns { r with office := r.office.ring } else r
    | none, none => r

/-- The active jobs whose sources were seen alive. -/
def seenJobs (r : Relay) : List String :=
  r.manager.activeJobs.filter fun job => r.seen.contains job || r.jobs.any fun j => j.jobId = job && j.worker.seen

/-- What a node has recorded. Connections that were not opened count as silent. -/
def recordOf (r : Relay) (port : Nat) : NodeScript → NodeRecord
  | .sockets left received => .sockets (received ++ left.map fun _ => [])
  | .http node => .http (match r.jobs.find? (·.port = port) with
    | some job => job.worker.requests
    | none => node.requests)

/-- What the nodes have recorded, by port. -/
def recorded (r : Relay) : List (Nat × NodeRecord) := r.nodes.map fun (port, script) => (port, r.recordOf port script)

end Relay

/-- The relay before its shutdown, with the number of jobs that it started, and after it. -/
structure RelayRun where
  started : Nat
  before : Relay
  after : Manager

/-- Runs a relay until so many requests were delivered or dropped. -/
def runRelay (enough : Nat) (relay : Relay) : RelayRun :=
  let store := relay.manager.store
  let (r, started) := Manager.startAll (fun _ (r : Relay) s e => r.begin s e) store 0 relay store.subscriptions
  let r := r.goOn enough longestPlay
  { started, before := r, after := r.manager.shutdownAll }

end Rehearsal
end OracleRelay
