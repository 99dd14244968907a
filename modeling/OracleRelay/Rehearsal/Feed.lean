/-
# Feeds in the place of adapters

A feed stands in for the adapter of a subscription: it puts into the sink what it is sent. It ends when it is told to
stop, when nothing more can be sent to it, when the sink takes no event any more, or with a failure. A feed that hangs
does not heed the first two.

Key definitions: `Rehearsal.Feed`, `Rehearsal.FeedEnding`, `Rehearsal.Feed.run`.
-/
import OracleRelay.Request.Event

namespace OracleRelay
namespace Rehearsal

/-- Why a feed ended. -/
inductive FeedEnding where
  | shutdown
  | ended
  | refused
  | failed
  deriving DecidableEq, Repr, Inhabited

/-- The name of a reason. -/
def FeedEnding.name : FeedEnding → String
  | .shutdown => "shutdown"
  | .ended => "ended"
  | .refused => "refused"
  | .failed => "failed"

/-- The feed of a job. -/
structure Feed where
  jobId : String
  hangs : Bool := false
  /-- the number of the pair that it belongs to, once it was started -/
  pair : Option Nat := none
  /-- what it was sent and has not put into the sink; none is a failure -/
  waiting : List (Option ChainEvent) := []
  /-- whether something can be sent to it -/
  isOpen : Bool := true
  isOver : Bool := false
  /-- whether it has put something into the sink -/
  seen : Bool := false
  deriving Inhabited

namespace Feed

/-- The events before the first failure. -/
def events : List (Option ChainEvent) → List ChainEvent
  | some e :: rest => e :: events rest
  | _ => []

/-- The feed after it put events into the sink. -/
def passed (f : Feed) (es : List ChainEvent) : Feed :=
  { f with waiting := f.waiting.drop es.length, seen := f.seen || !es.isEmpty }

/-- The feed at its end. -/
def finish (f : Feed) : Feed := { f with isOver := true, waiting := [] }

/-- Lets a feed go on as far as it can: the events that it puts into a sink with room for so many while nobody empties
it, and why it ended, if it did. A sink whose pump was told to stop is not emptied and then taken away. -/
def run (f : Feed) (told : Bool) (room : Nat) : Feed × List ChainEvent × Option FeedEnding :=
  let es := events f.waiting
  let fails := es.length < f.waiting.length
  if told && !f.hangs then (f.finish, [], some .shutdown)
  else if told && room < es.length then ((f.passed es).finish, [], some .refused)
  else
    let after := f.passed es
    let given := if told then [] else es
    if fails then (after.finish, given, some .failed)
    else if !f.isOpen && !f.hangs then (after.finish, given, some .ended)
    else (after, given, none)

end Feed
end Rehearsal
end OracleRelay
