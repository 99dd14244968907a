/-
# States of an adapter

Where an adapter is on its way from the first connection to its end, as the log names it.

Key definitions: `AdapterState`, `AdapterState.name`.
-/

namespace OracleRelay

/-- A stage in the life of an adapter. -/
inductive AdapterState where
  | disconnected
  | connecting
  | subscribed
  | polling
  | closing
  | closed
  deriving DecidableEq, Repr

namespace AdapterState

/-- The name of a stage. -/
def name : AdapterState → String
  | .disconnected => "disconnected"
  | .connecting => "connecting"
  | .subscribed => "subscribed"
  | .polling => "polling"
  | .closing => "closing"
  | .closed => "closed"

/-- All stages in their order. -/
def all : List AdapterState := [.disconnected, .connecting, .subscribed, .polling, .closing, .closed]

end AdapterState
end OracleRelay
