/-
# Flavors of EVM chains

Chains of the EVM family differ in the names of their methods, in what their logs are counted by, and in how
they write addresses.

Key definitions: `Evm.Flavor`, `Evm.Methods`, `Evm.Flavor.methods`, `Evm.Flavor.normalizeAddress`.
-/
import OracleRelay.Config.Chain
import OracleRelay.Cursor.Tracker

namespace OracleRelay
namespace Evm

/-- The names of the methods that the relay calls. -/
structure Methods where
  getLogs : String
  subscribe : String
  unsubscribe : String
  /-- the number of the newest block or epoch -/
  head : String
  deriving DecidableEq, Repr

/-- The methods of chains that count blocks, by their first word. -/
def Methods.ofWord (word : String) : Methods :=
  ⟨word ++ "_getLogs", word ++ "_subscribe", word ++ "_unsubscribe", word ++ "_blockNumber"⟩

/-- A chain of the family. -/
inductive Flavor where
  | ethereum
  | binanceSmartChain
  | harmony
  | klaytn
  | conflux
  | xinfin
  deriving DecidableEq, Repr, Inhabited

namespace Flavor

/-- The flavor of a chain. -/
def ofChain? : Chain → Option Flavor
  | .ethereum => some .ethereum
  | .binanceSmartChain => some .binanceSmartChain
  | .harmony => some .harmony
  | .klaytn => some .klaytn
  | .conflux => some .conflux
  | .xinfin => some .xinfin
  | _ => none

/-- The chain of a flavor. -/
def chain : Flavor → Chain
  | .ethereum => .ethereum
  | .binanceSmartChain => .binanceSmartChain
  | .harmony => .harmony
  | .klaytn => .klaytn
  | .conflux => .conflux
  | .xinfin => .xinfin

/-- The methods of a flavor. -/
def methods : Flavor → Methods
  | .harmony => .ofWord "hmy"
  | .klaytn => .ofWord "klay"
  | .conflux => { Methods.ofWord "cfx" with head := "cfx_epochNumber" }
  | _ => .ofWord "eth"

/-- What the logs of a flavor are counted by. -/
def rangeKind : Flavor → RangeKind
  | .conflux => .epoch
  | _ => .block

/-- An address as filters and the job node expect it. One flavor writes `xdc` in place of `0x`. -/
def normalizeAddress (f : Flavor) (address : String) : String :=
  match f, address.toList with
  | .xinfin, a :: b :: c :: rest =>
    if [a, b, c].map Char.toLower = ['x', 'd', 'c'] then String.ofList ('0' :: 'x' :: rest) else address
  | _, _ => address

/-- Whether subscriptions to logs also carry notices that blocks were dropped. -/
def hasRevertNotices : Flavor → Bool
  | .conflux => true
  | _ => false

end Flavor
end Evm
end OracleRelay
