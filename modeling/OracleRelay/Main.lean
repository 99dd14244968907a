/-
# The command line

Runs a command on the files and the environment of the machine. Nodes cannot be reached from here, so the test of each
connection fails, and a relay that starts waits without a job until it is interrupted.

Key definitions: `main`.
-/
import OracleRelay.Command.Basic
import OracleRelay.Service.Manager

namespace OracleRelay
namespace CommandLine

/-- The text of a file. -/
def textOfFile (path : String) : IO (Except ReadFault String) := do
  try
    return match String.fromUTF8? (← IO.FS.readBinFile path) with
      | some text => .ok text
      | none => .error .notText
  catch fault =>
    return .error (match fault with
      | .permissionDenied .. => .forbidden
      | .inappropriateType _ code _ => if code = -20 then .notFolder else .isFolder
      | _ => .missing)

/-- Goes through an act. -/
def perform : Act → IO Outcome
  | .read path next => do perform (next (← textOfFile path))
  | .done outcome => return outcome

/-- The variables of the environment that settings name. -/
def environment : IO (List (String × String)) :=
  Setting.all.filterMapM fun s => do return (← IO.getEnv s.envName).map fun value => (s.envName, value)

/-- Starts the relay and waits until it is interrupted. -/
def relay (settings : Settings) (snapshot : Snapshot) : IO UInt32 := do
  let manager : Manager := { substrate := settings.substrate, store := .ofSnapshot snapshot }
  let (_, started) := manager.bootstrap fun _ => .error (.transport .broken)
  IO.println ("subscriptions bootstrapped: " ++ Numeral.decimal started)
  repeat IO.sleep 1000
  return 0

/-- Runs the command that the words name. -/
def run (args : List String) : IO UInt32 := do
  match ← perform (Command.actOf (← environment) args) with
  | .finished output =>
    IO.print output.out
    IO.eprint output.err
    return output.status
  | .relay settings snapshot => relay settings snapshot

end CommandLine
end OracleRelay

/-- The program. -/
def main (args : List String) : IO UInt32 := OracleRelay.CommandLine.run args
