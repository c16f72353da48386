/-!
# Networks

Every blockchain has a main network, on which coins have value, and test networks, which share one address format.
-/

namespace MergedMining

/-- The network that a daemon follows. -/
inductive Network
  | main
  | test
  deriving Repr, DecidableEq

namespace Network

/-- The name of a network. -/
def name : Network → String
  | .main => "main"
  | .test => "test"

/-- The network of a name that daemons use. -/
def ofName? (s : String) : Option Network :=
  if s = "main" ∨ s = "mainnet" then some .main
  else if s = "test" ∨ s = "testnet" ∨ s = "regtest" then some .test
  else none

end Network

end MergedMining
