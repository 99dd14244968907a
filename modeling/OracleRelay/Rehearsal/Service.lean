/-
# Rehearsing the manager

The manager works with feeds in the place of adapters, a scripted job node and a clock that stands still while anything
can go on. Each step is an operation of the manager or something that happens around it, and ends in a report.

Key definitions: `Rehearsal.Service`, `Rehearsal.Service.runCall`, `Rehearsal.ServiceStep`, `Rehearsal.Report`,
`Rehearsal.Service.step`.
-/
import OracleRelay.Rehearsal.Feed
import OracleRelay.Rehearsal.Office
import OracleRelay.Service.Manager
import OracleRelay.Service.Pump

namespace OracleRelay
namespace Rehearsal

/-- How the test of a connection goes, and how long it takes. -/
structure TrialScript where
  outcome : Except AdapterFault Unit := .ok ()
  delay : Nat := 0
  deriving Inhabited

/-- The manager and what is around it. -/
structure Service where
  manager : Manager := {}
  office : Office JobScripts := { node := JobScripts.node, script := [] }
  feeds : List Feed := []
  /-- the milliseconds that a pair may take to stop -/
  grace : Nat := 5000
  /-- the events that a sink has room for -/
  room : Nat := 64
  /-- the tests of connections by job; a test that is not listed goes well -/
  trials : List (String × TrialScript) := []
  /-- the jobs whose feeds hang -/
  hanging : List String := []
  /-- the jobs and endpoints that the store refuses to keep -/
  refused : List String := []
  /-- whether the store refuses to list subscriptions -/
  isShut : Bool := false
  /-- the jobs and names of the adapters that were built since the last report -/
  built : List (String × String) := []
  /-- the jobs of the feeds that ended since the last report, and why -/
  stopped : List (String × FeedEnding) := []

namespace Service

/-- Puts a feed in its place. -/
def put (s : Service) (i : Nat) (f : Feed) : Service := { s with feeds := s.feeds.set i f }

/-- The feed of a pair, and its place. -/
def feedOf (s : Service) (pair : Nat) : Option (Feed × Nat) := s.feeds.zipIdx.find? (·.1.pair = some pair)

/-- Hands the requests in events to the dispatcher, through the pump of a job. -/
def pump (s : Service) (jobId : String) (es : List ChainEvent) : Service :=
  { s with office := (es.foldl Pump.pass { jobId }).handed.foldl (fun o r => o.send jobId r) s.office }

/-- Lets the feed at a place go on. -/
def settleFeed (s : Service) (i : Nat) : Service :=
  match s.feeds[i]? with
  | none => s
  | some f =>
    match f.pair with
    | none => s
    | some pair =>
      if f.isOver then s
      else
        let (after, events, ending) := f.run (s.manager.told.contains pair) s.room
        let s := (s.put i after).pump f.jobId events
        { s with stopped := s.stopped ++ (ending.map ((f.jobId, ·))).toList }

/-- Lets all feeds go on. -/
def settle (s : Service) : Service := (List.range s.feeds.length).foldl settleFeed s

/-- Ends a feed by force, if it has not ended. Nothing is noted of it. -/
def abort (s : Service) (pair : Nat) : Service :=
  match s.feedOf pair with
  | some (f, i) => s.put i f.finish
  | none => s

/-- Whether the feed of a pair goes on. -/
def isRunning (s : Service) (pair : Nat) : Bool := (s.feedOf pair).any fun (f, _) => !f.isOver

/-- Moves the clock on. -/
def pass (s : Service) (ms : Nat) : Service := { s with office := s.office.advance ms }

/-- Waits for pairs to stop, for each of them in turn as long as it may take, and ends the feeds by force that have not
ended then. When pairs may take no time, none can end by itself. -/
def linger (s : Service) (pairs : List Manager.Pair) : Service :=
  if s.grace = 0 then pairs.foldl (fun s p => s.abort p.number) s
  else pairs.foldl (fun s p => if s.isRunning p.number then (s.pass s.grace).abort p.number else s) s.settle

/-- A call in progress: the feed that was built for it, and how long the test of its connection still takes. -/
structure Progress where
  call : Manager.Call
  feed : Option Nat := none
  wait : Nat := 0
  deriving Inhabited

/-- What the store says when it is to keep something. -/
def keeping (s : Service) (name : String) : Except StoreFault Unit :=
  if s.refused.contains name then .error (.backend "save refused") else .ok ()

/-- What a call meets with outside the manager at its next step. -/
def surroundings (s : Service) : Manager.Call → Manager.Surroundings
  | .trial sub _ _ => { trial := ((s.trials.lookup sub.jobId).getD {}).outcome }
  | .save sub => { save := s.keeping sub.jobId }
  | .saveEndpoint e => { save := s.keeping e.name }
  | _ => {}

/-- Builds the feed for a subscription. -/
def build (s : Service) (sub : Subscription) (plan : Plan) : Service :=
  { s with
    feeds := s.feeds ++ [{ jobId := sub.jobId, hangs := s.hanging.contains sub.jobId }]
    built := s.built ++ [(sub.jobId, plan.name)] }

/-- The next step of a call. A feed that was built for a call that fails is thrown away. -/
def stepCall (s : Service) (p : Progress) : Service × Progress :=
  let (manager, call) := p.call.step s.manager (s.surroundings p.call)
  let place := s.manager.started.length
  let begun : Option Nat := if place < manager.started.length then some place else none
  let s := { s with manager }
  match p.call, p.feed with
  | .trial .., some i => match call with
    | .ended _ => (s.put i { s.feeds.getD i default with isOver := true }, { p with call })
    | _ => (s, { p with call })
  | .insert .., some i =>
    let f := s.feeds.getD i default
    (s.put i { f with pair := begun, isOver := begun.isNone }, { p with call })
  | .linger pairs _, _ => (s.linger pairs, { p with call })
  | _, _ => (s, { p with call })

/-- Goes on with a call for so many steps, until it is over or the test of its connection takes time. -/
def proceed : Nat → Service → Progress → Service × Progress
  | 0, s, p => (s, p)
  | n + 1, s, p =>
    match p.call, p.feed with
    | .ended _, _ => (s, p)
    | .trial sub e _, none =>
      match Plan.make s.manager.substrate sub e with
      | .error _ => let (s, p) := s.stepCall p; proceed n s p
      | .ok plan =>
        let delay := ((s.trials.lookup sub.jobId).getD {}).delay
        let p := { p with feed := some s.feeds.length, wait := delay }
        if delay = 0 then proceed n (s.build sub plan) p else (s.build sub plan, p)
    | _, _ => let (s, p) := s.stepCall p; proceed n s p

/-- No call takes more steps. -/
def longestCall : Nat := 16

/-- The verdict of a call that is over. -/
def Progress.verdict (p : Progress) : Manager.Verdict :=
  match p.call with
  | .ended verdict => verdict
  | _ => .ok ()

/-- Runs a call to its end. -/
def runCall (s : Service) (call : Manager.Call) : Service × Manager.Verdict :=
  let (s, p) := s.proceed longestCall { call }
  if p.wait = 0 then (s, p.verdict)
  else
    let (s, p) := proceed longestCall (s.settle.pass p.wait) p
    (s, p.verdict)

/-- Runs two calls at once. When the tests of their connections take time, they come to their ends in the other
order. -/
def runTwice (s : Service) (call : Manager.Call) : Service × List Manager.Verdict :=
  let (s, first) := s.proceed longestCall { call }
  let (s, second) := s.proceed longestCall { call }
  if second.wait = 0 then (s, [first.verdict, second.verdict])
  else
    let (s, second) := proceed longestCall (s.settle.pass second.wait) second
    let (s, first) := s.proceed longestCall first
    (s, [first.verdict, second.verdict])

/-- Sends items to the feed that was built last for a job, and counts those that it takes. -/
def emit (s : Service) (jobId : String) (items : List (Option ChainEvent)) : Service × Nat :=
  match s.feeds.zipIdx.reverse.find? (·.1.jobId = jobId) with
  | some (f, i) =>
    if f.isOpen && !f.isOver then (s.put i { f with waiting := f.waiting ++ items }, items.length) else (s, 0)
  | none => (s, 0)

/-- Lets nothing more be sent to the feed that was built last for a job. -/
def endFeed (s : Service) (jobId : String) : Service :=
  match s.feeds.zipIdx.reverse.find? (·.1.jobId = jobId) with
  | some (f, i) => s.put i { f with isOpen := false }
  | none => s

end Service

/-- What happens in one step. -/
inductive ServiceStep where
  | call (c : Manager.Call)
  | addTwice (s : Subscription) (e : Endpoint)
  | bootstrap
  | emit (jobId : String) (items : List (Option ChainEvent))
  | endFeed (jobId : String)
  /-- drop a subscription from the store behind the manager's back -/
  | deleteStored (jobId : String)
  | wait (ms : Nat)

/-- What comes of a step. -/
inductive StepResult where
  | verdict (v : Manager.Verdict)
  | verdicts (vs : List Manager.Verdict)
  | count (n : Except SubscriptionFault Nat)
  | dropped (r : Except StoreFault Unit)

/-- What is reported after a step. -/
structure Report where
  result : StepResult
  millis : Nat
  active : List String
  /-- the active jobs whose sources were seen alive -/
  seen : List String
  built : List (String × String)
  stopped : List (String × String)
  /-- the jobs of the stored subscriptions -/
  stored : List String
  endpoints : Nat
  office : Office JobScripts

namespace Service

/-- Lets something happen. -/
def act (s : Service) : ServiceStep → Service × StepResult
  | .call c => (s.runCall c).map id .verdict
  | .addTwice sub e => (s.runTwice (.check sub e false)).map id .verdicts
  | .bootstrap =>
    if s.isShut then (s, .count (.error (.store (.backend "load refused"))))
    else
      let store := s.manager.store
      let (s, n) := Manager.startAll (fun _ (s : Service) sub e => s.runCall (.check sub e false)) store 0 s
        store.subscriptions
      (s, .count (.ok n))
  | .emit jobId items => (s.emit jobId items).map id (.count ∘ .ok)
  | .endFeed jobId => (s.endFeed jobId, .verdict (.ok ()))
  | .deleteStored jobId =>
    match s.manager.store.deleteSubscription jobId with
    | .ok store => ({ s with manager := { s.manager with store } }, .dropped (.ok ()))
    | .error fault => (s, .dropped (.error fault))
  | .wait ms => (s.settle.pass ms, .verdict (.ok ()))

/-- The active jobs whose feeds have put something into the sink. -/
def seenJobs (s : Service) : List String :=
  s.manager.activeJobs.filter fun job => (s.manager.pair? job).any fun p => (s.feedOf p.number).any (·.1.seen)

/-- Reasons in the order of a report. -/
def stoppedInOrder (a b : String × String) : Bool := a.1 < b.1 || (a.1 = b.1 && a.2 ≤ b.2)

/-- The report of a result. -/
def report (s : Service) (result : StepResult) : Report where
  result
  millis := s.office.now
  active := s.manager.activeJobs
  seen := s.seenJobs
  built := s.built
  stopped := (s.stopped.map fun (job, ending) => (job, ending.name)).mergeSort stoppedInOrder
  stored := s.manager.store.subscriptions.map (·.jobId)
  endpoints := s.manager.store.endpoints.length
  office := s.office

/-- A step and its report. Whoever can go on does so before the report, unless the step is to be left as it is. -/
def step (s : Service) (what : ServiceStep) (settles : Bool) : Service × Report :=
  let (s, result) := { s with office := s.office.fresh, built := [], stopped := [] }.act what
  let s := if settles then s.settle else s
  (s, s.report result)

end Service
end Rehearsal
end OracleRelay
