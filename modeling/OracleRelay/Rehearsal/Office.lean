/-
# Rehearsing deliveries

The job node answers the attempts for each job from a script, on a clock that stands still while anything can go on.
Answers that take no time come in the same breath as the attempt, and so do rests that take no time. Of what is due at
one time, what was set first comes first.

Key definitions: `Rehearsal.TriggerReply`, `Rehearsal.JobNode`, `Rehearsal.Office`, `Rehearsal.Office.send`,
`Rehearsal.Office.advance`, `Rehearsal.dispatchEach`, `Rehearsal.dispatchAll`.
-/
import OracleRelay.Dispatch.Delivery

namespace OracleRelay
namespace Rehearsal

/-- How an attempt goes, and how long it takes. -/
structure TriggerReply where
  outcome : Except TriggerFault Unit := .ok ()
  delay : Nat := 0
  deriving Inhabited

/-- A call for a run of a job, with its time. -/
structure TimedCall where
  millis : Nat
  jobId : String
  body : String
  deriving DecidableEq, Repr, Inhabited

/-- What is due at a time. -/
structure Alarm where
  due : Nat
  step : Dispatcher.Step

/-- A job node with a script: how an attempt at a run of a job with some body goes, and where the script goes on. -/
structure JobNode (ν : Type) where
  reply : ν → (jobId body : String) → TriggerReply
  next : ν → (jobId body : String) → ν

/-- The replies that are left for each job; after them, all goes well. -/
abbrev JobScripts : Type := List (String × List TriggerReply)

/-- The job node that goes by the replies for each job. -/
def JobScripts.node : JobNode JobScripts where
  reply scripts jobId _ := (scripts.lookup jobId).elim {} fun replies => replies.head?.getD {}
  next scripts jobId _ := scripts.map fun (job, replies) => (job, if job = jobId then replies.tail else replies)

/-- The dispatcher, the job node and the clock. -/
structure Office (ν : Type) where
  node : JobNode ν
  script : ν
  dispatcher : Dispatcher := {}
  /-- the milliseconds of a rest -/
  restMillis : Nat := 1000
  now : Nat := 0
  /-- what is due, the earliest first -/
  alarms : List Alarm := []
  /-- the calls since the last report -/
  calls : List TimedCall := []

namespace Office

variable {ν : Type}

/-- Sets an alarm behind those that are not later. -/
def insertAlarm (a : Alarm) : List Alarm → List Alarm
  | [] => [a]
  | b :: bs => if a.due < b.due then a :: b :: bs else b :: insertAlarm a bs

/-- Sets an alarm. -/
def setAlarm (o : Office ν) (millis : Nat) (step : Dispatcher.Step) : Office ν :=
  { o with alarms := insertAlarm ⟨o.now + millis, step⟩ o.alarms }

/-- A step of the dispatcher. -/
def act (o : Office ν) (step : Dispatcher.Step) : Office ν := { o with dispatcher := o.dispatcher.step step }

/-- Notes a call for the next report. -/
def note (o : Office ν) (call : TimedCall) : Office ν := { o with calls := o.calls ++ [call] }

/-- Lets a delivery go on until it has to wait or is over; it can do so for as many attempts as are given. -/
def follow (i : Nat) : Nat → Office ν → Office ν
  | 0, o => o
  | attempts + 1, o =>
    match o.dispatcher.deliveries[i]? with
    | none => o
    | some d =>
      match d.phase with
      | .due =>
        let reply := o.node.reply o.script d.jobId d.body
        let o := { o with script := o.node.next o.script d.jobId d.body }
        let o := (o.act (.call i)).note ⟨o.now, d.jobId, d.body⟩
        if reply.delay = 0 then follow i attempts (o.act (.answer i reply.outcome))
        else o.setAlarm reply.delay (.answer i reply.outcome)
      | .resting =>
        if o.restMillis = 0 then follow i attempts (o.act (.wake i)) else o.setAlarm o.restMillis (.wake i)
      | _ => o

/-- A delivery goes through at most so many phases in one breath. -/
def breath (o : Office ν) : Nat := 2 * o.dispatcher.limit + 4

/-- Lets a delivery go on until it has to wait or is over. -/
def settle (o : Office ν) (i : Nat) : Office ν := follow i o.breath o

/-- The delivery that a step is about. -/
def subject : Dispatcher.Step → Option Nat
  | .send .. => none
  | .call i | .answer i _ | .wake i => some i

/-- Hands a request over and lets its delivery go on. -/
def send (o : Office ν) (jobId : String) (request : Fields) : Office ν :=
  (o.act (.send jobId request)).settle o.dispatcher.next

/-- Lets the first alarm go off. -/
def ring (o : Office ν) : Office ν :=
  match o.alarms with
  | [] => o
  | a :: rest =>
    let o := { o with alarms := rest, now := max o.now a.due }.act a.step
    (subject a.step).elim o o.settle

/-- Lets alarms go off that are due by a time, not more than are given. -/
def ringUntil (time : Nat) : Nat → Office ν → Office ν
  | 0, o => o
  | n + 1, o =>
    match o.alarms with
    | [] => o
    | a :: _ => if a.due ≤ time then ringUntil time n o.ring else o

/-- A bound on the alarms that can still go off. -/
def alarmBound (o : Office ν) : Nat := (2 * o.dispatcher.limit + 4) * (o.dispatcher.deliveries.length + 1)

/-- Moves the clock to a time, with all that is due until then. -/
def advanceTo (o : Office ν) (time : Nat) : Office ν := { ringUntil time o.alarmBound o with now := max o.now time }

/-- Moves the clock on. -/
def advance (o : Office ν) (millis : Nat) : Office ν := o.advanceTo (o.now + millis)

/-- Moves the clock from alarm to alarm until deliveries from some number on are over. -/
def await (first : Nat) : Nat → Office ν → Office ν
  | 0, o => o
  | n + 1, o => if (o.dispatcher.deliveries.drop first).all (·.isOver) then o else await first n o.ring

/-- Before and after: the order of calls in a report. -/
def callsInOrder (a b : TimedCall) : Bool :=
  a.millis < b.millis || (a.millis = b.millis && (a.jobId < b.jobId || (a.jobId = b.jobId && a.body ≤ b.body)))

/-- The calls since the last report, in the order of a report. -/
def sortedCalls (o : Office ν) : List TimedCall := o.calls.mergeSort callsInOrder

/-- Begins a new report. -/
def fresh (o : Office ν) : Office ν := { o with calls := [] }

end Office

/-- The office after each request was delivered or dropped in turn, before the next one was sent. -/
def dispatchEach {ν : Type} : Office ν → List (String × Fields) → List (Office ν)
  | _, [] => []
  | o, (jobId, request) :: rest =>
    let sent := o.fresh.send jobId request
    let done := sent.await o.dispatcher.next sent.alarmBound
    done :: dispatchEach done rest

/-- The office after all requests were sent at once and delivered or dropped. -/
def dispatchAll {ν : Type} (o : Office ν) (requests : List (String × Fields)) : Office ν :=
  let sent := requests.foldl (fun o (jobId, request) => o.send jobId request) o
  sent.await 0 sent.alarmBound

end Rehearsal
end OracleRelay
