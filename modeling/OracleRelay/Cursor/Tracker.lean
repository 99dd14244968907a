/-
# The forward-only cursor

A poll asks for what lies at or after its cursor. The cursor starts unset or at a tag for the tip of the chain,
takes the position after the first event seen, and from then on only moves forward.

Key definitions: `RangeKind`, `RangeKind.isSentinel`, `Tracker`, `Tracker.observe`, `Tracker.ensureStarted`.
-/
import OracleRelay.Cursor.Position

namespace OracleRelay

/-- What a cursor counts. -/
inductive RangeKind where
  | block
  | epoch
  deriving DecidableEq, Repr, Inhabited

namespace RangeKind

/-- The name of the lower bound in a query. -/
def fromKey : RangeKind → String
  | .block => "fromBlock"
  | .epoch => "fromEpoch"

/-- The name of the upper bound in a query. -/
def toKey : RangeKind → String
  | .block => "toBlock"
  | .epoch => "toEpoch"

/-- The tag of the tip of the chain. -/
def latest : RangeKind → String
  | .block => "latest"
  | .epoch => "latest_state"

/-- The start of the chain. -/
def genesis : RangeKind → String := fun _ => "0x0"

/-- Whether a bound is unset or a tag of the tip. -/
def isSentinel (kind : RangeKind) (bound : String) : Bool :=
  bound = "" || match kind with
    | .block => bound = "latest"
    | .epoch => bound = "latest_state" || bound = "latest_mined"

/-- The names of the kinds. -/
def names : List (String × RangeKind) := [("block", .block), ("epoch", .epoch)]

/-- The name of a kind. -/
def name : RangeKind → String
  | .block => "block"
  | .epoch => "epoch"

end RangeKind

/-- The cursor of one subscription: the lower bound as it is sent to the node. -/
structure Tracker where
  kind : RangeKind
  bound : String := ""
  deriving DecidableEq, Repr, Inhabited

namespace Tracker

/-- A cursor at the tip of the chain. -/
def startingAtLatest (kind : RangeKind) : Tracker := ⟨kind, kind.latest⟩

/-- Whether the bound is unset or a tag of the tip. -/
def isSentinel (t : Tracker) : Bool := t.kind.isSentinel t.bound

/-- Whether the bound is unset. -/
def isUnset (t : Tracker) : Bool := t.bound = ""

/-- Replaces the bound by what the node says. -/
def seed (t : Tracker) (bound : String) : Tracker := { t with bound }

/-- Replaces an unset bound by the tag of the tip. -/
def ensureStarted (t : Tracker) : Tracker := if t.isUnset then t.seed t.kind.latest else t

/-- Whether an event at a position moves the cursor. -/
def advances (t : Tracker) (position : Nat) : Bool :=
  t.isSentinel || match Position.parse? t.bound with
    | some current => current < Position.next position
    | none => false

/-- Notes an event at a position. -/
def observe (t : Tracker) (position : Nat) : Tracker :=
  if t.advances position then t.seed (Position.encode (Position.next position)) else t

end Tracker
end OracleRelay
