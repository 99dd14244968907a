/-
# Settings of the relay

Everything the relay needs besides endpoints and subscriptions. Spans of time are in seconds.

Key definitions: `Settings`, `DispatchSettings`, `SocketSettings`, `LogSettings`, `Settings.ofUrl`,
`LogSettings.directives`, `withScheme`.
-/
import OracleRelay.Config.Backoff
import OracleRelay.Json.Printer

namespace OracleRelay

/-- How often and how long a request is sent to the job node. -/
structure DispatchSettings where
  /-- attempts for one request, the first included -/
  maxAttempts : Nat := 3
  retryDelay : Nat := 1
  requestTimeout : Nat := 5
  deriving DecidableEq, Repr, Inhabited

namespace DispatchSettings

/-- Reads the settings. -/
def reader : Json.Reader DispatchSettings := fun depth t => do
  let r ← Json.Record.read? ["max_attempts", "retry_delay", "request_timeout"] depth t
  return {
    maxAttempts := ← r.withDefault "max_attempts" (Json.Tree.nat? 32) 3
    retryDelay := ← r.withDefault "retry_delay" (Json.Tree.nat? 64) 1
    requestTimeout := ← r.withDefault "request_timeout" (Json.Tree.nat? 64) 5 }

/-- The settings as a value. -/
def toJson (s : DispatchSettings) : Json := .object
  [("max_attempts", .nat s.maxAttempts), ("retry_delay", .nat s.retryDelay),
   ("request_timeout", .nat s.requestTimeout)]

end DispatchSettings

/-- The limits of connections over which a node pushes. -/
structure SocketSettings where
  handshakeTimeout : Nat := 5
  ackTimeout : Nat := 5
  backoff : Backoff := {}
  /-- notifications that wait to be read -/
  buffer : Nat := 64
  deriving DecidableEq, Repr, Inhabited

namespace SocketSettings

/-- Reads the settings. -/
def reader : Json.Reader SocketSettings := fun depth t => do
  let r ← Json.Record.read? ["handshake_timeout", "ack_timeout", "backoff", "buffer"] depth t
  return {
    handshakeTimeout := ← r.withDefault "handshake_timeout" (Json.Tree.nat? 64) 5
    ackTimeout := ← r.withDefault "ack_timeout" (Json.Tree.nat? 64) 5
    backoff := ← r.withDefault "backoff" Backoff.reader {}
    buffer := ← r.withDefault "buffer" (Json.Tree.nat? 64) 64 }

/-- The settings as a value. -/
def toJson (s : SocketSettings) : Json := .object
  [("handshake_timeout", .nat s.handshakeTimeout), ("ack_timeout", .nat s.ackTimeout),
   ("backoff", s.backoff.toJson), ("buffer", .nat s.buffer)]

end SocketSettings

/-- What the relay knows of Substrate chains. -/
structure SubstrateSettings where
  /-- the index of the pallet that emits oracle requests -/
  pallet : Nat := 6
  deriving DecidableEq, Repr, Inhabited

namespace SubstrateSettings

/-- Reads the settings. -/
def reader : Json.Reader SubstrateSettings := fun depth t => do
  let r ← Json.Record.read? ["chainlink_pallet"] depth t
  return { pallet := ← r.withDefault "chainlink_pallet" (Json.Tree.nat? 8) 6 }

/-- The settings as a value. -/
def toJson (s : SubstrateSettings) : Json := .object [("chainlink_pallet", .nat s.pallet)]

end SubstrateSettings

/-- What is logged, and how. -/
structure LogSettings where
  level : String := "info"
  /-- levels of single parts, in the order of their names -/
  components : List (String × String) := []
  json : Bool := false
  deriving DecidableEq, Repr, Inhabited

namespace LogSettings

/-- Puts a level under a name into levels in the order of names. -/
def putLevel (key level : String) : List (String × String) → List (String × String)
  | [] => [(key, level)]
  | (k, l) :: rest =>
    if key = k then (key, level) :: rest
    else if key < k then (key, level) :: (k, l) :: rest
    else (k, l) :: putLevel key level rest

/-- The name and level of a member. -/
def level? (member : Option String × Json.Tree) : Option (String × String) := do
  return (← member.1, ← Json.Tree.string? 0 member.2)

/-- Reads levels by name; the last of a name counts. -/
def levelsReader : Json.Reader (List (String × String))
  | depth, .object members =>
    if depth = 0 then none
    else (members.mapM level?).map (·.foldl (fun acc (k, l) => putLevel k l acc) [])
  | _, _ => none

/-- Reads the settings. -/
def reader : Json.Reader LogSettings := fun depth t => do
  let r ← Json.Record.read? ["level", "components", "json"] depth t
  return {
    level := ← r.withDefault "level" Json.Tree.string? "info"
    components := ← r.withDefault "components" levelsReader []
    json := ← r.withDefault "json" Json.Tree.bool? false }

/-- The settings as a value. -/
def toJson (s : LogSettings) : Json := .object
  [("level", .text s.level), ("components", .object (s.components.map fun (k, l) => (k, .text l))),
   ("json", .bool s.json)]

/-- The settings as one line: the level, then the parts with theirs, hyphens in names written as underscores. -/
def directives (s : LogSettings) : String :=
  s.components.foldl (fun line (k, l) =>
    line ++ "," ++ String.ofList (k.toList.map fun c => if c = '-' then '_' else c) ++ "=" ++ l) s.level

end LogSettings

/-- Puts the scheme in front of an address that starts with the name of the own machine. -/
def withScheme (url : String) : String :=
  if "localhost".toList.isPrefixOf url.toList then "http://" ++ url else url

/-- The settings of a relay. -/
structure Settings where
  /-- the address of the job node -/
  nodeUrl : String
  accessKey : String
  secret : String
  dispatch : DispatchSettings := {}
  /-- events that wait between an adapter and its pump -/
  eventBuffer : Nat := 64
  /-- how long adapters may take to stop -/
  shutdownGrace : Nat := 5
  socket : SocketSettings := {}
  substrate : SubstrateSettings := {}
  log : LogSettings := {}
  deriving DecidableEq, Repr, Inhabited

namespace Settings

/-- The default settings for a job node. -/
def ofUrl (url accessKey secret : String) : Settings := { nodeUrl := withScheme url, accessKey, secret }

/-- Reads settings. -/
def reader : Json.Reader Settings := fun depth t => do
  let r ← Json.Record.read? ["chainlink_url", "access_key", "secret", "dispatch", "event_buffer",
    "shutdown_grace", "ws", "substrate", "log"] depth t
  return {
    nodeUrl := ← r.required "chainlink_url" Json.Tree.string?
    accessKey := ← r.required "access_key" Json.Tree.string?
    secret := ← r.required "secret" Json.Tree.string?
    dispatch := ← r.withDefault "dispatch" DispatchSettings.reader {}
    eventBuffer := ← r.withDefault "event_buffer" (Json.Tree.nat? 64) 64
    shutdownGrace := ← r.withDefault "shutdown_grace" (Json.Tree.nat? 64) 5
    socket := ← r.withDefault "ws" SocketSettings.reader {}
    substrate := ← r.withDefault "substrate" SubstrateSettings.reader {}
    log := ← r.withDefault "log" LogSettings.reader {} }

/-- Settings as a value. -/
def toJson (s : Settings) : Json := .object
  [("chainlink_url", .text s.nodeUrl), ("access_key", .text s.accessKey), ("secret", .text s.secret),
   ("dispatch", s.dispatch.toJson), ("event_buffer", .nat s.eventBuffer),
   ("shutdown_grace", .nat s.shutdownGrace), ("ws", s.socket.toJson), ("substrate", s.substrate.toJson),
   ("log", s.log.toJson)]

end Settings
end OracleRelay
