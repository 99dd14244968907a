/-
# Chains

The kinds of chains that the relay watches, by the tags that name them in configurations.

Key definitions: `Chain`, `Chain.tag`, `Chain.ofTag?`, `Chain.isEvm`.
-/

namespace OracleRelay

/-- A kind of chain. -/
inductive Chain where
  | ethereum
  | binanceSmartChain
  | harmony
  | klaytn
  | conflux
  | xinfin
  | substrate
  | tezos
  | ontology
  deriving DecidableEq, Repr, Inhabited

namespace Chain

/-- The kinds in their order. -/
def all : List Chain :=
  [.ethereum, .binanceSmartChain, .harmony, .klaytn, .conflux, .xinfin, .substrate, .tezos, .ontology]

/-- The tag of a kind. -/
def tag : Chain → String
  | .ethereum => "eth"
  | .binanceSmartChain => "binance-smart-chain"
  | .harmony => "hmy"
  | .klaytn => "klaytn"
  | .conflux => "cfx"
  | .xinfin => "xinfin"
  | .substrate => "substrate"
  | .tezos => "tezos"
  | .ontology => "ontology"

/-- The kind with a tag. -/
def ofTag? (s : String) : Option Chain := all.find? (·.tag = s)

/-- The tags with their kinds. -/
def tags : List (String × Chain) := all.map fun c => (c.tag, c)

/-- Whether the chain runs contracts of the EVM family. -/
def isEvm : Chain → Bool
  | .substrate | .tezos | .ontology => false
  | _ => true

end Chain
end OracleRelay
