/-
# How a command is called

A command is called with words, in an environment of variables. A setting is the word after its flag or, where the
flag is not among the words, the value of its variable, unless that is empty.

Key definitions: `Setting`, `Invocation`, `Invocation.get?`, `Invocation.settingsOver`.
-/
import OracleRelay.Config.Settings

namespace OracleRelay

/-- The two names of a setting: its flag, and its variable in the environment. -/
structure Setting where
  flag : String
  envName : String
  deriving DecidableEq, Repr

namespace Setting

/-- The address of the job node. -/
def nodeUrl : Setting := ⟨"--chainlink-url", "CHAINRELAY_CHAINLINK_URL"⟩
/-- The access key for the job node. -/
def accessKey : Setting := ⟨"--access-key", "CHAINRELAY_ACCESS_KEY"⟩
/-- The secret for the job node. -/
def secret : Setting := ⟨"--secret", "CHAINRELAY_SECRET"⟩
/-- The file of endpoints and subscriptions. -/
def subscriptions : Setting := ⟨"--subscriptions", "CHAINRELAY_SUBSCRIPTIONS"⟩
/-- The file of settings. -/
def config : Setting := ⟨"--config", "CHAINRELAY_CONFIG"⟩
/-- The level of what is logged. -/
def logLevel : Setting := ⟨"--log-level", "CHAINRELAY_LOG_LEVEL"⟩
/-- Whether log lines are JSON; its flag stands alone. -/
def logJson : Setting := ⟨"--log-json", "CHAINRELAY_LOG_JSON"⟩

/-- All settings. -/
def all : List Setting := [nodeUrl, accessKey, secret, subscriptions, config, logLevel, logJson]

end Setting

/-- The words after the name of a command, and the variables of its environment. -/
structure Invocation where
  words : List String
  environment : List (String × String) := []
  deriving DecidableEq, Repr, Inhabited

namespace Invocation

/-- The word after the first one that is a flag. -/
def wordAfter? (flag : String) : List String → Option String
  | [] => none
  | w :: ws => if w = flag then ws.head? else wordAfter? flag ws

/-- The value of a setting. -/
def get? (i : Invocation) (s : Setting) : Option String :=
  match wordAfter? s.flag i.words with
  | some w => some w
  | none => (i.environment.lookup s.envName).filter (· ≠ "")

/-- Whether log lines are JSON, if the call says so: the flag says yes, and the variable says what its value says. -/
def logsJson? (i : Invocation) : Option Bool :=
  if i.words.contains Setting.logJson.flag then some true
  else (i.environment.lookup Setting.logJson.envName).map (["1", "true", "yes"].contains ·)

/-- Settings with what the call says in place of what they say. -/
def settingsOver (i : Invocation) (s : Settings) : Settings :=
  { s with
    nodeUrl := (i.get? .nodeUrl).getD s.nodeUrl
    accessKey := (i.get? .accessKey).getD s.accessKey
    secret := (i.get? .secret).getD s.secret
    log := { s.log with level := (i.get? .logLevel).getD s.log.level, json := i.logsJson?.getD s.log.json } }

end Invocation
end OracleRelay
