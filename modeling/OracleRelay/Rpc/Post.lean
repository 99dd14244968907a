/-
# Calls over HTTP

A call is posted to the address of the node, and the body of the reply is the response. Whether the response bears
the id of the request is not looked at: the exchange itself ties the two together.

Key definitions: `Rpc.Request.post?`, `Rpc.responseOf`.
-/
import OracleRelay.Http.Exchange

namespace OracleRelay
namespace Rpc

/-- A request posted to an address. -/
def Request.post? (url : String) (r : Request) : Option Http.Request := Http.Request.post? url r.toJson.render

/-- The response that comes of a posted request. -/
def responseOf (ms : Nat) (x : Http.Exchange) : Except TransportFault Response := x.read Response.reader ms

/-- The result that comes of a posted request. -/
def resultOf (ms : Nat) (x : Http.Exchange) : Except TransportFault Json := (responseOf ms x).bind (·.value)

end Rpc
end OracleRelay
