/-
# Why an operation on subscriptions fails

Faults of the caller, who asks for what cannot be, and faults of the node or the store.

Key definitions: `SubscriptionFault`, `SubscriptionFault.ofAdapter`, `SubscriptionFault.isClientError`.
-/
import OracleRelay.Config.Store
import OracleRelay.Rpc.Fault

namespace OracleRelay

/-- Why an operation on subscriptions failed. -/
inductive SubscriptionFault where
  /-- the job has an active subscription -/
  | duplicateJob (jobId : String)
  /-- the job has none -/
  | notFound (jobId : String)
  | config (fault : ConfigFault)
  /-- the test of the connection failed -/
  | connection (fault : AdapterFault)
  | store (fault : StoreFault)
  deriving BEq, Repr

namespace SubscriptionFault

/-- The text of a fault. -/
def message : SubscriptionFault → String
  | .duplicateJob jobId => "already subscribed to job " ++ jobId
  | .notFound jobId => "subscription not found for job " ++ jobId
  | .config fault => fault.message
  | .connection fault => "connection test failed: " ++ fault.message
  | .store fault => fault.message

/-- Whether the caller is at fault. -/
def isClientError : SubscriptionFault → Bool
  | .duplicateJob _ | .notFound _ | .config _ => true
  | .connection _ | .store _ => false

/-- The fault of an adapter that could not be set up. What is wrong with the configuration is the caller's fault. -/
def ofAdapter : AdapterFault → SubscriptionFault
  | .config fault => .config fault
  | fault => .connection fault

end SubscriptionFault
end OracleRelay
