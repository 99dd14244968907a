/-
# What can go wrong between relay and node

Faults of an exchange with a node, and of an adapter, which talks to a node for one subscription.

Key definitions: `TransportFault`, `TransportFault.isRetryable`, `AdapterFault`.
-/
import OracleRelay.Config.Endpoint
import OracleRelay.Cursor.LogFilter
import OracleRelay.Rpc.Message

namespace OracleRelay

/-- What went wrong in an exchange with a node. -/
inductive TransportFault where
  | http (text : String)
  /-- the exchange ended before the answer was complete -/
  | broken
  | socket (text : String)
  | rpc (error : Rpc.Error)
  | timeout (ms : Nat)
  | unreadable
  | unexpected (text : String)
  deriving BEq, Repr, Inhabited

namespace TransportFault

/-- The text of a fault. -/
def message : TransportFault → String
  | .http text => "HTTP error: " ++ text
  | .broken => "HTTP error: the connection broke"
  | .socket text => "WebSocket error: " ++ text
  | .rpc error => "RPC error " ++ Numeral.decimalInt error.code ++ ": " ++ error.message
  | .timeout ms => "Request timed out after " ++ Numeral.decimal ms ++ "ms"
  | .unreadable => "Deserialization error: the answer cannot be read"
  | .unexpected text => "Unexpected response: " ++ text

/-- Whether the same exchange may go well later. -/
def isRetryable : TransportFault → Bool
  | .http _ | .broken | .socket _ | .timeout _ => true
  | _ => false

end TransportFault

/-- The result that a response brings to its caller. -/
def Rpc.Response.value (r : Rpc.Response) : Except TransportFault Json := r.outcome.mapError .rpc

/-- What went wrong in an adapter. -/
inductive AdapterFault where
  | transport (fault : TransportFault)
  | filter (conflict : LogFilter.Conflict)
  | config (fault : ConfigFault)
  | protocol (text : String)
  deriving BEq, Repr, Inhabited

/-- The text of a fault. -/
def AdapterFault.message : AdapterFault → String
  | .transport fault => fault.message
  | .filter conflict => conflict.message
  | .config fault => fault.message
  | .protocol text => text

end OracleRelay
