/-
# Sessions one after another

A subscriber opens a session, and a new one each time a session fails, with a wait in between. The waits grow with
the failures since the node last named a subscription. A subscriber that is told to stop, or whose consumer is gone,
opens no session any more; nor does one whose next wait is too long to be kept.

Key definitions: `Push.Subscriber`, `Push.Subscriber.failuresAfter`, `Push.Subscriber.rest`, `Push.Subscriber.step`,
`Push.Subscriber.run`.
-/
import OracleRelay.Config.Backoff
import OracleRelay.Push.Session

namespace OracleRelay
namespace Push

namespace Subscriber

/-- Where a subscriber stands. -/
inductive Phase where
  | running (session : Session)
  /-- in the wait after a failed session -/
  | resting (wait : Nat)
  | over
  deriving Inhabited

end Subscriber

/-- A subscriber with the sessions that it has ended. -/
structure Subscriber where
  spec : Spec
  backoff : Backoff := {}
  /-- how many units of the waits are a second -/
  second : Nat := 1
  phase : Subscriber.Phase := .running {}
  /-- the failures since the node last named a subscription -/
  failures : Nat := 0
  past : List Session := []
  deriving Inhabited

namespace Subscriber

/-- What can happen to a subscriber. -/
inductive Event where
  | session (h : Happening)
  /-- the wait is over -/
  | rested

/-- The failures after a failed session. They stop growing at the largest number of 32 bits. -/
def failuresAfter (failures : Nat) (session : Session) : Nat :=
  min ((if session.acked then 0 else failures) + 1) 0xFFFFFFFF

/-- Goes into the wait before the next session. -/
def rest (s : Subscriber) : Subscriber :=
  match s.backoff.delayIn? s.second s.failures with
  | some wait => { s with phase := .resting wait }
  | none => { s with phase := .over }

/-- Goes on after a step of the session. -/
def follow (s : Subscriber) (session : Session) : Subscriber :=
  match session.phase with
  | .over (.failed _) =>
    { s with failures := failuresAfter s.failures session, past := s.past ++ [session] }.rest
  | .over _ => { s with phase := .over, past := s.past ++ [session] }
  | _ => { s with phase := .running session }

/-- What a subscriber does. -/
def step (s : Subscriber) (e : Event) : Subscriber :=
  match s.phase, e with
  | .running session, .session h => s.follow (session.step s.spec h)
  | .resting _, .session .told => { s with phase := .over }
  | .resting _, .rested => { s with phase := .running {} }
  | _, _ => s

/-- Some events in order. -/
def run (s : Subscriber) (es : List Event) : Subscriber := es.foldl step s

/-- The session that runs. -/
def current? (s : Subscriber) : Option Session :=
  match s.phase with
  | .running session => some session
  | _ => none

/-- Where the session that runs stands. -/
def sessionPhase? (s : Subscriber) : Option Session.Phase := s.current?.map (·.phase)

/-- All sessions in order. -/
def sessions (s : Subscriber) : List Session := s.past ++ s.current?.toList

/-- The results that were handed on, in order. -/
def handed (s : Subscriber) : List Json := s.sessions.flatMap (·.handed)

/-- Whether the subscriber has ended. -/
def isOver (s : Subscriber) : Bool :=
  match s.phase with
  | .over => true
  | _ => false

end Subscriber
end Push
end OracleRelay
