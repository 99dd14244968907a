/-
# Rehearsing an adapter

An adapter is run against a node that answers from a script, on a clock that stands still while anything can go
on and else moves straight to the next moment at which something is due. What comes out is a transcript: the
questions with the time at which they were asked, and the events that the sink took, in order.

Key definitions: `Rehearsal.Node`, `Rehearsal.Cue`, `Rehearsal.Stage`, `Rehearsal.Stage.consult`,
`Rehearsal.Stage.turn`, `Rehearsal.Stage.play`.
-/
import OracleRelay.Adapter.Loop

namespace OracleRelay
namespace Rehearsal

/-- What happens with an answer. -/
structure Cue where
  /-- whether the question belongs into the transcript -/
  noted : Bool := true
  /-- the milliseconds that the node takes -/
  delay : Nat := 0
  /-- whether nobody takes events any more from then on -/
  deserts : Bool := false
  /-- whether the adapter is told to stop then -/
  tells : Bool := false
  deriving Inhabited

/-- A node with a script: what it says at each point of the script, what happens then, and where it goes on. -/
structure Node (Ask : Type) (Answer : Ask → Type) (ν : Type) where
  answer : ν → (question : Ask) → Answer question
  cue : ν → Ask → Cue
  next : ν → Ask → ν

/-- A line of a transcript. -/
inductive Entry (Ask : Type) where
  /-- a question, its time, and whether the adapter had seen its source alive -/
  | asked (question : Ask) (millis : Nat) (seen : Bool)
  | passed (event : ChainEvent)

/-- A beat that is late by more than this is counted from the time at which it came. -/
def lateness : Nat := 5

/-- A play is cut after so many turns. -/
def longestPlay : Nat := 1000000

/-- The adapter, the script and the clock. -/
structure Stage (Ask σ ν : Type) where
  adapter : Adapter.Running σ
  script : ν
  /-- the milliseconds since the start -/
  now : Nat := 0
  /-- the time of the next beat, once there was one -/
  beat : Option Nat := none
  /-- whether nobody takes events any more -/
  deserted : Bool := false
  /-- the transcript, its last line first -/
  lines : List (Entry Ask) := []

namespace Stage

variable {Ask : Type} {Answer : Ask → Type} {σ ν : Type}

/-- The transcript from its first line on. -/
def transcript (s : Stage Ask σ ν) : List (Entry Ask) := s.lines.reverse

/-- Adds a line to the transcript. -/
def note (s : Stage Ask σ ν) (line : Entry Ask) : Stage Ask σ ν := { s with lines := line :: s.lines }

/-- Puts a question to the node and waits for what it says. -/
def consult (node : Node Ask Answer ν) (seen : σ → Bool) (s : Stage Ask σ ν) (question : Ask) : Stage Ask σ ν :=
  let cue := node.cue s.script question
  let s := if cue.noted then s.note (.asked question s.now (seen s.adapter.state)) else s
  { s with
    script := node.next s.script question
    now := s.now + cue.delay
    deserted := s.deserted || cue.deserts
    adapter := if cue.tells then s.adapter.tell else s.adapter }

/-- The time at which a beat comes, and the time of the beat after it. -/
def beatTimes (s : Stage Ask σ ν) (period : Nat) : Nat × Nat :=
  let due := s.beat.getD s.now
  let time := max due s.now
  (time, if due + lateness < time then time + period else due + period)

/-- A look of the adapter at what it waits for. -/
def poll (loop : Adapter.Loop Ask Answer σ) (s : Stage Ask σ ν) (ready : Adapter.Ready Ask Answer) :
    Stage Ask σ ν :=
  { s with adapter := s.adapter.poll loop ready }

/-- Lets come what the adapter waits for. An answer is taken in before the adapter can heed what came with it. -/
def turn (loop : Adapter.Loop Ask Answer σ) (node : Node Ask Answer ν) (seen : σ → Bool) (period : Nat)
    (s : Stage Ask σ ν) : Stage Ask σ ν :=
  match loop s.adapter.state with
  | .ended => s.poll loop .nothing
  | .tick _ =>
    if s.adapter.told then s.poll loop .nothing
    else
      let (time, beat) := s.beatTimes period
      { s with now := time, beat := some beat }.poll loop .timer
  | .pause ms _ =>
    if s.adapter.told then s.poll loop .nothing else { s with now := s.now + ms }.poll loop .timer
  | .offer event _ =>
    if s.adapter.told then s.poll loop .nothing
    else if s.deserted then s.poll loop .deserted
    else (s.note (.passed event)).poll loop .room
  | .ask question guard _ =>
    if s.adapter.told && guard = .heeded then s.poll loop .nothing
    else
      let after := s.consult node seen question
      if s.adapter.told && guard = .inOneBreath && s.now < after.now then { after with now := s.now }.poll loop .nothing
      else { after with adapter :=
        let taken := s.adapter.poll loop (.reply (node.answer s.script))
        if after.adapter.told then taken.tell else taken }

/-- Goes on for a number of turns, or until the adapter has ended. -/
def play (loop : Adapter.Loop Ask Answer σ) (node : Node Ask Answer ν) (seen : σ → Bool) (period : Nat) :
    Nat → Stage Ask σ ν → Stage Ask σ ν
  | 0, s => s
  | turns + 1, s =>
    if s.adapter.ended then s else play loop node seen period turns (s.turn loop node seen period)

end Stage
end Rehearsal
end OracleRelay
