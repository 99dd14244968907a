/-
# What a command does

A command reads files, one after the other, and ends: it leaves lines on its two outputs and a status, or it hands
over settings and a snapshot with which the relay starts. What a command does depends on nothing but the files, so it
can be run in any place that can tell what a file holds.

Key definitions: `ReadFault`, `CommandFault`, `Output`, `Outcome`, `Act`, `Act.run`.
-/
import OracleRelay.Config.Settings
import OracleRelay.Config.Store
import OracleRelay.Text.Numeral

namespace OracleRelay

/-- Why a file cannot be read as a text. -/
inductive ReadFault where
  | missing
  | forbidden
  | notFolder
  | isFolder
  | notText
  deriving DecidableEq, Repr

/-- The text of a fault, with the number that the system gives it. -/
def ReadFault.message : ReadFault → String
  | .missing => "No such file or directory (os error 2)"
  | .forbidden => "Permission denied (os error 13)"
  | .notFolder => "Not a directory (os error 20)"
  | .isFolder => "Is a directory (os error 21)"
  | .notText => "stream did not contain valid UTF-8"

/-- Why a command fails. -/
inductive CommandFault where
  | noNodeUrl
  | noKeys
  | noSubscriptions
  | reading (path : String) (fault : ReadFault)
  | parsing (path : String)
  | problems (count : Nat)
  deriving DecidableEq, Repr

/-- The text of a fault. -/
def CommandFault.message : CommandFault → String
  | .noNodeUrl => "--chainlink-url is required"
  | .noKeys => "--access-key and --secret are required"
  | .noSubscriptions => "--subscriptions is required"
  | .reading path fault => "reading " ++ path ++ ": " ++ fault.message
  | .parsing path => "parsing " ++ path
  | .problems count => Numeral.decimal count ++ " problem(s) found"

/-- What a command leaves on its outputs, and its status. -/
structure Output where
  status : UInt32 := 0
  out : String := ""
  err : String := ""
  deriving DecidableEq, Repr, Inhabited

/-- Some lines, each ended. -/
def Output.lines (ls : List String) : String := String.join (ls.map (· ++ "\n"))

/-- The output of a command that fails, after some lines. -/
def Output.failed (fault : CommandFault) (out : List String) : Output :=
  { status := 1, out := Output.lines out, err := Output.lines ["Error: " ++ fault.message] }

/-- How a command ends: it is finished, or the relay starts. -/
inductive Outcome where
  | finished (output : Output)
  | relay (settings : Settings) (snapshot : Snapshot)
  deriving DecidableEq, Repr, Inhabited

/-- What a command does: it asks for the text of a file and goes on with the answer, or it ends. -/
inductive Act where
  | read (path : String) (next : Except ReadFault String → Act)
  | done (outcome : Outcome)

namespace Act

/-- Ends with an output. -/
def finish (output : Output) : Act := .done (.finished output)

/-- Ends with a fault. -/
def fail (fault : CommandFault) : Act := finish (.failed fault [])

/-- Reads a file that holds a value as JSON. -/
def readValue {α : Type} (reader : Json.Reader α) (path : String) (next : α → Act) : Act :=
  .read path fun
    | .error fault => fail (.reading path fault)
    | .ok text => match Json.readText? reader text with
      | none => fail (.parsing path)
      | some x => next x

/-- How it ends where files hold what a function says. -/
def run (content : String → Except ReadFault String) : Act → Outcome
  | .read path next => (next (content path)).run content
  | .done outcome => outcome

end Act
end OracleRelay
