/-
# The commands

The first word of a call names a command: start the relay, check a file of endpoints and subscriptions, list the chains,
or print the version or the help. A call without a word, or with one that names none, prints the help and fails.

Key definitions: `Command`, `Command.ofName?`, `Command.act`, `Command.actOf`.
-/
import OracleRelay.Command.Act
import OracleRelay.Command.Invocation
import OracleRelay.Config.Check

namespace OracleRelay

/-- A command. -/
inductive Command where
  | run
  | validate
  | chains
  | version
  | help
  deriving DecidableEq, Repr

namespace Command

/-- The names of the commands. -/
def names : List (String × Command) :=
  [("run", .run), ("validate", .validate), ("chains", .chains), ("version", .version), ("--version", .version),
   ("-V", .version), ("help", .help), ("--help", .help), ("-h", .help)]

/-- The command with a name. -/
def ofName? (name : String) : Option Command := names.lookup name

/-- The line that names the program and its version. -/
def versionLine : String := "chainrelay 0.1.0"

/-- The help. -/
def helpLines : List String :=
  [versionLine,
   "Relay on-chain oracle requests to a job execution node",
   "",
   "USAGE:",
   "    chainrelay <COMMAND>",
   "",
   "COMMANDS:",
   "    run        Start every subscription and relay until ctrl-c",
   "    validate   Check a subscription file",
   "    chains     List supported chains",
   "    version    Print version",
   "    help       Print this help",
   "",
   "RUN FLAGS:",
   "    --chainlink-url <URL>    Job execution node    [env: CHAINRELAY_CHAINLINK_URL]",
   "    --access-key <KEY>       Trigger access key    [env: CHAINRELAY_ACCESS_KEY]",
   "    --secret <SECRET>        Trigger secret        [env: CHAINRELAY_SECRET]",
   "    --subscriptions <FILE>   Endpoints and jobs    [env: CHAINRELAY_SUBSCRIPTIONS]",
   "    --config <FILE>          Relay tunables (JSON) [env: CHAINRELAY_CONFIG]",
   "    --log-level <LEVEL>      Default log level     [env: CHAINRELAY_LOG_LEVEL]",
   "    --log-json               JSON log lines        [env: CHAINRELAY_LOG_JSON]"]

/-- The schemes of addresses at which nodes of a chain are reached. -/
def schemes : Chain → String
  | .substrate => "ws/wss"
  | .tezos | .ontology => "http/https"
  | _ => "ws/wss, http/https"

/-- The list of chains. -/
def chainLines : List String :=
  ["Supported chains:", ""] ++ Chain.all.map fun c => "  " ++ Column.padded 20 c.tag ++ " " ++ schemes c

/-- What is missing in settings with which the relay should start. -/
def missing? (s : Settings) : Option CommandFault :=
  if s.nodeUrl = "" then some .noNodeUrl
  else if s.accessKey = "" ∨ s.secret = "" then some .noKeys
  else none

/-- Goes on with the settings that a call gives, over those of its file. -/
def withSettings (i : Invocation) (next : Settings → Act) : Act :=
  let go (base : Settings) : Act :=
    let s := i.settingsOver base
    match missing? s with
    | some fault => .fail fault
    | none => next { s with nodeUrl := withScheme s.nodeUrl }
  match i.get? .config with
  | some path => .readValue Settings.reader path go
  | none => go (.ofUrl "" "" "")

/-- Goes on with the snapshot in the file that a call names. -/
def withSnapshot (i : Invocation) (next : Snapshot → Act) : Act :=
  match i.get? .subscriptions with
  | some path => .readValue Snapshot.reader path next
  | none => .fail .noSubscriptions

/-- The output of a check. -/
def checked (s : Snapshot) : Output :=
  match s.problems with
  | [] => { out := Output.lines ["OK: " ++ Numeral.decimal s.endpoints.length ++ " endpoint(s), " ++
      Numeral.decimal s.subscriptions.length ++ " subscription(s)"] }
  | ps => .failed (.problems ps.length) (ps.map (·.line))

/-- What a command does. -/
def act (i : Invocation) : Command → Act
  | .run => withSettings i fun settings => withSnapshot i fun snapshot => .done (.relay settings snapshot)
  | .validate => withSnapshot i fun snapshot => .finish (checked snapshot)
  | .chains => .finish { out := Output.lines chainLines }
  | .version => .finish { out := Output.lines [versionLine] }
  | .help => .finish { out := Output.lines helpLines }

/-- The output of a call that names no command. -/
def unnamed (err : List String) : Output :=
  { status := 1, out := Output.lines helpLines, err := Output.lines err }

/-- What a call does in an environment: its first word names the command. -/
def actOf (environment : List (String × String)) : List String → Act
  | [] => .finish (unnamed [])
  | name :: words => match ofName? name with
    | some command => command.act { words, environment }
    | none => .finish (unnamed ["Unknown command: " ++ name])

end Command
end OracleRelay
