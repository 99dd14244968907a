/-
# Which adapter serves a subscription

The chain of the endpoint and the way in which it is connected to decide on the adapter: EVM chains push or are polled
for logs, Substrate chains push, Tezos nodes announce heads, and the blocks of Ontology chains are scanned.

Key definitions: `Plan`, `Plan.make`, `Plan.name`.
-/
import OracleRelay.Evm.Poll
import OracleRelay.Ontology.Scan
import OracleRelay.Config.Settings
import OracleRelay.Push.Listener
import OracleRelay.Tezos.Monitor

namespace OracleRelay

/-- An adapter before it is connected. -/
inductive Plan where
  | evmPush (flavor : Evm.Flavor) (spec : Push.Spec)
  /-- polled once in so many milliseconds -/
  | evmPoll (poller : Evm.Poller) (period : Nat)
  | substratePush (watch : Substrate.Watch)
  | tezosMonitor (monitor : Tezos.Monitor)
  | ontologyScan (scanner : Ontology.Scanner)
  deriving Inhabited

namespace Plan

/-- The name of the adapter. -/
def name : Plan → String
  | .evmPush flavor _ => Evm.pushName flavor
  | .evmPoll poller _ => poller.name
  | .substratePush _ => Substrate.pushName
  | .tezosMonitor _ => Tezos.Monitor.name
  | .ontologyScan _ => Ontology.Scanner.name

/-- The adapter for an EVM chain. -/
def makeEvm (flavor : Evm.Flavor) (s : Subscription) (e : Endpoint) : Connection → Except AdapterFault Plan
  | .push => ((Evm.pushSpec flavor s.jobId s.addresses).mapError .filter).map (.evmPush flavor)
  | .poll => .ok (.evmPoll (.create flavor s.jobId s.addresses) e.refreshMillis)

/-- The adapter for a chain of another kind. -/
def makeOther (settings : SubstrateSettings) (s : Subscription) (chain : Chain) (connection : Connection) :
    Except AdapterFault Plan :=
  match chain, connection with
  | .substrate, .push =>
    ((Substrate.Watch.ofAccounts s.jobId s.accountIds (.ofNat settings.pallet)).mapError .config).map .substratePush
  | .tezos, .poll => .ok (.tezosMonitor { jobId := s.jobId, addresses := s.addresses })
  | .ontology, .poll => .ok (.ontologyScan { jobId := s.jobId, addresses := s.addresses })
  | chain, connection => .error (.config (.unsupportedConnection chain connection))

/-- The adapter for a subscription at an endpoint. -/
def make (settings : SubstrateSettings) (s : Subscription) (e : Endpoint) : Except AdapterFault Plan :=
  match s.validateFor e with
  | .error fault => .error (.config fault)
  | .ok () =>
    match e.connection with
    | .error fault => .error (.config fault)
    | .ok connection =>
      match Evm.Flavor.ofChain? e.chain with
      | some flavor => makeEvm flavor s e connection
      | none => makeOther settings s e.chain connection

end Plan
end OracleRelay
