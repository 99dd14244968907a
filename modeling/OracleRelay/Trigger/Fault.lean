/-
# Faults of the job node

Why a run of a job could not be started, and whether another attempt is worth while.

Key definitions: `TriggerFault`, `TriggerFault.isRetryable`.
-/
import OracleRelay.Text.Numeral

namespace OracleRelay

/-- Why a run was not started. -/
inductive TriggerFault where
  | transport (text : String)
  /-- the exchange ended before the answer was complete -/
  | broken
  | timeout
  | status (code : Nat) (body : String)
  | client (text : String)
  deriving DecidableEq, Repr, Inhabited

namespace TriggerFault

/-- The text of a fault. -/
def message : TriggerFault → String
  | .transport text => "trigger request failed: " ++ text
  | .broken => "trigger request failed: the connection broke"
  | .timeout => "trigger request timed out"
  | .status code body => "trigger API returned " ++ Numeral.decimal code ++ ": " ++ body
  | .client text => "failed to build trigger client: " ++ text

/-- Failures on the way and of the server are worth another attempt. -/
def isRetryable : TriggerFault → Bool
  | .transport _ | .broken | .timeout => true
  | .status code _ => 500 ≤ code
  | .client _ => false

end TriggerFault
end OracleRelay
