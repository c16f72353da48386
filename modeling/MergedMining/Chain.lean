import MergedMining.Chain.Network
import MergedMining.Fault

/-!
# Blockchains

The chains that can be mined.  On both of them work is measured by the scrypt function, and a share of
difficulty one is worth `2 ^ 16` hashes, so difficulties shown to miners are larger by that factor.
-/

namespace MergedMining

/-- A blockchain that can be mined. -/
inductive Chain
  | dogecoin
  | litecoin
  deriving Repr, DecidableEq

namespace Chain

/-- The name of a chain. -/
def name : Chain → String
  | .dogecoin => "dogecoin"
  | .litecoin => "litecoin"

/-- The chain of a name. -/
def ofName (s : String) : Except ValidationFault Chain :=
  if s = "dogecoin" then .ok .dogecoin
  else if s = "litecoin" then .ok .litecoin
  else .error (.unknownChain s)

/-- The difficulty that miners see is this multiple of the network's. -/
def shareMultiplier : Chain → Float := fun _ => 65536

/-- The confirmations after which the reward of a block can be spent. -/
def maturity : Chain → Nat := fun _ => 102

end Chain

end MergedMining
