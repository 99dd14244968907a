/-
# Requests and replies

One exchange over HTTP: a request goes out, and a reply comes back in pieces, unless the exchange breaks or lasts too
long. A reply with a status of success gives its body; of any other reply the body is only quoted, as far as it came.

Key definitions: `Http.Request`, `Http.Reply`, `Http.Exchange`, `Http.Reply.body`, `Http.Exchange.accepted`,
`Http.Exchange.read`.
-/
import OracleRelay.Json.Octets
import OracleRelay.Rpc.Fault
import OracleRelay.Url.Address

namespace OracleRelay
namespace Http

/-- A request as it goes out. -/
structure Request where
  method : String
  /-- path and query -/
  target : String
  headers : List (String × String) := []
  body : String := ""
  deriving DecidableEq, Repr, Inhabited

/-- The name of the header that tells what a body is. -/
def contentType : String := "content-type"

/-- The type of a body in JSON. -/
def jsonType : String := "application/json"

/-- The target of requests to an address; none where no request can be sent. -/
def target? (url : String) : Option String :=
  match Url.parse url with
  | .ok u => if u.scheme = "http" ∨ u.scheme = "https" then some u.target else none
  | .error _ => none

namespace Request

/-- A request without body. -/
def get? (url : String) : Option Request := (target? url).map fun target => { method := "GET", target }

/-- A request with a body in JSON. -/
def post? (url : String) (body : String) : Option Request :=
  (target? url).map fun target => { method := "POST", target, headers := [(contentType, jsonType)], body }

/-- The first line of a request. -/
def line (r : Request) : String := r.method ++ " " ++ r.target ++ " HTTP/1.1"

end Request

/-- Whether a text can be the value of a header: no control characters but the tab. -/
def isHeaderValue (s : String) : Bool := s.toList.all fun c => (0x20 ≤ c.toNat && c.toNat ≠ 0x7F) || c = '\t'

/-- Why an exchange has no end. -/
inductive Lapse where
  /-- the connection broke -/
  | broken
  /-- nothing came in time -/
  | late
  deriving DecidableEq, Repr, Inhabited

/-- The fault of an exchange that was given so many milliseconds. -/
def Lapse.fault (ms : Nat) : Lapse → TransportFault
  | .broken => .broken
  | .late => .timeout ms

/-- A reply: its status, the pieces of the body that came, and why none came after them, if not all came. -/
structure Reply where
  status : Nat
  pieces : List (List UInt8) := []
  lapse : Option Lapse := none
  deriving DecidableEq, Repr, Inhabited

namespace Reply

/-- Whether replies with the status of this one have no body. -/
def isBare (r : Reply) : Bool := r.status = 204 || r.status = 304

/-- Whether the reply is one of success. -/
def isSuccess (r : Reply) : Bool := 200 ≤ r.status && r.status < 300

/-- The body, if all of it came. -/
def body (r : Reply) : Except Lapse (List UInt8) :=
  if r.isBare then .ok []
  else match r.lapse with
    | some lapse => .error lapse
    | none => .ok r.pieces.flatten

/-- The body as text, nothing where it did not come. -/
def quote (r : Reply) : String := (r.body.toOption.map Utf8.toStringLossy).getD ""

end Reply

/-- What came of a request. -/
inductive Exchange where
  /-- nobody was there to take it -/
  | refused
  /-- it was taken, but no reply came -/
  | unanswered (lapse : Lapse)
  | replied (reply : Reply)
  deriving DecidableEq, Repr, Inhabited

namespace Exchange

/-- What the other side has of the request. -/
def taken (x : Exchange) (request : Option Request) : Option Request := if x = .refused then none else request

/-- The reply, if one came. -/
def reply (x : Exchange) : Except Lapse Reply :=
  match x with
  | .refused => .error .broken
  | .unanswered lapse => .error lapse
  | .replied r => .ok r

/-- The body of a reply of success, when the exchange was given so many milliseconds. -/
def accepted (ms : Nat) (x : Exchange) : Except TransportFault (List UInt8) :=
  match x.reply with
  | .error lapse => .error (lapse.fault ms)
  | .ok r =>
    if r.isSuccess then r.body.mapError (·.fault ms)
    else .error (.http ("HTTP " ++ Numeral.decimal r.status ++ ": " ++ r.quote))

/-- What a reply of success says in JSON. -/
def read {α : Type} (reader : Json.Reader α) (ms : Nat) (x : Exchange) : Except TransportFault α :=
  match x.accepted ms with
  | .error fault => .error fault
  | .ok bs => (Json.readOctets? reader bs).elim (.error .unreadable) .ok

end Exchange

/-- The exchange that a request comes to. One that cannot be sent is as good as refused. -/
def exchange (request : Option Request) (node : Request → Exchange) : Exchange := request.elim .refused node

end Http
end OracleRelay
