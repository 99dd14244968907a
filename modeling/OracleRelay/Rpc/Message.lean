/-
# Messages between relay and node

Requests, responses and notifications of JSON-RPC. A response holds a result or an error; a notification names
the subscription that it belongs to.

Key definitions: `Rpc.Id`, `Rpc.Call`, `Rpc.Request`, `Rpc.Response`, `Rpc.Response.outcome`, `Rpc.Notification`.
-/
import OracleRelay.Json.Printer
import OracleRelay.Json.Record

namespace OracleRelay
namespace Rpc

/-- The name by which a response is told to belong to a request. -/
inductive Id where
  | number (n : Nat)
  | text (s : String)
  | null
  deriving DecidableEq, Repr, Inhabited

namespace Id

/-- Reads an id. -/
def reader : Json.Reader Id
  | _, .null => some .null
  | _, .number (some (.int (.ofNat n))) => if n < 0x10000000000000000 then some (.number n) else none
  | _, .text s => s.map .text
  | _, _ => none

/-- An id as a value. -/
def toJson : Id → Json
  | .number n => .nat n
  | .text s => .text s
  | .null => .null

/-- The number that an id is. -/
def number? : Id → Option Nat
  | .number n => some n
  | _ => none

/-- An id as plain text. -/
def display : Id → String
  | .number n => Numeral.decimal n
  | .text s => s
  | .null => "null"

end Id

/-- The version of the protocol. -/
def version : String := "2.0"

/-- A method with its parameters. -/
structure Call where
  method : String
  params : List Json := []
  deriving Inhabited

/-- A request for a call, with the id that its response bears. -/
structure Request where
  version : String := Rpc.version
  method : String
  params : List Json
  id : Id
  deriving Inhabited

/-- The request for a call under a number. -/
def Call.request (c : Call) (n : Nat) : Request := { method := c.method, params := c.params, id := .number n }

namespace Request

/-- A request as a value. -/
def toJson (r : Request) : Json := .object
  [("jsonrpc", .text r.version), ("method", .text r.method), ("params", .array r.params), ("id", r.id.toJson)]

/-- Reads a request. -/
def reader : Json.Reader Request := fun depth t => do
  let r ← Json.Record.read? ["jsonrpc", "method", "params", "id"] depth t
  return {
    version := ← r.required "jsonrpc" Json.Tree.string?
    method := ← r.required "method" Json.Tree.string?
    params := ← r.required "params" (Json.Tree.list? Json.Tree.value?)
    id := ← r.required "id" Id.reader }

end Request

/-- What a node says went wrong. -/
structure Error where
  code : Int
  message : String
  data : Option Json := none
  deriving BEq, Repr, Inhabited

namespace Error

/-- Reads an error. -/
def reader : Json.Reader Error := fun depth t => do
  let r ← Json.Record.read? ["code", "message", "data"] depth t
  return {
    code := ← r.required "code" (Json.Tree.int? 64)
    message := ← r.required "message" Json.Tree.string?
    data := ← r.optional "data" Json.Tree.value? }

/-- An error as a line of text. -/
def display (e : Error) : String := "JSON-RPC error " ++ Numeral.decimalInt e.code ++ ": " ++ e.message

/-- The member that an optional value gives. -/
def member? (name : String) : Option Json → List (String × Json)
  | some v => [(name, v)]
  | none => []

/-- An error as a value. -/
def toJson (e : Error) : Json := .object
  ([("code", .int e.code), ("message", .text e.message)] ++ member? "data" e.data)

end Error

/-- The answer to a request. -/
structure Response where
  version : String := Rpc.version
  id : Id
  result : Option Json := none
  error : Option Error := none
  deriving Inhabited

namespace Response

/-- Reads a response. -/
def reader : Json.Reader Response := fun depth t => do
  let r ← Json.Record.read? ["jsonrpc", "id", "result", "error"] depth t
  return {
    version := ← r.required "jsonrpc" Json.Tree.string?
    id := ← r.required "id" Id.reader
    result := ← r.optional "result" Json.Tree.value?
    error := ← r.optional "error" Error.reader }

/-- A response as a value. -/
def toJson (r : Response) : Json := .object
  ([("jsonrpc", .text r.version), ("id", r.id.toJson)] ++ Error.member? "result" r.result ++
    Error.member? "error" (r.error.map (·.toJson)))

/-- What the response says: the error if it holds one, else the result, `null` when there is none. -/
def outcome (r : Response) : Except Error Json :=
  match r.error with
  | some e => .error e
  | none => .ok (r.result.getD .null)

end Response

/-- A message that a node pushes for a subscription. -/
structure Notification where
  method : String
  subscription : Json
  result : Json
  deriving Inhabited

namespace Notification

/-- Reads the parameters of a notification: the subscription and the result. -/
def paramsReader : Json.Reader (Json × Json) := fun depth t => do
  let r ← Json.Record.read? ["subscription", "result"] depth t
  return (← r.required "subscription" Json.Tree.value?, ← r.withDefault "result" Json.Tree.value? .null)

/-- Reads a notification. -/
def reader : Json.Reader Notification := fun depth t => do
  let r ← Json.Record.read? ["method", "params"] depth t
  let method ← r.required "method" Json.Tree.string?
  let (subscription, result) ← r.required "params" paramsReader
  return { method, subscription, result }

/-- The name of the subscription that the notification belongs to. -/
def subscriptionId (n : Notification) : String := n.subscription.plainText

end Notification
end Rpc
end OracleRelay
