import MergedMining.Share.Record
import MergedMining.Store.FoundBlock

/-!
# Where shares and blocks are kept

A store keeps shares and found blocks.  Every operation may fail, and says what it left behind.
-/

namespace MergedMining

/-- Why a store did not do what it was asked. -/
inductive StoreFault
  | unavailable
  | unknownBlock (id : Int)
  | notUpdatable (id : Int)
  | malformed (line : Nat)
  deriving Repr, DecidableEq

/-- The text of a store fault. -/
def StoreFault.message : StoreFault → String
  | .unavailable => "store unavailable"
  | .unknownBlock id => s!"no block with id {id}"
  | .notUpdatable id => s!"no block with id {id} to update"
  | .malformed line => s!"malformed record on line {line}"

/-- The operations of a store. -/
class Store (σ : Type) where
  /-- Keeps shares, all of them or none. -/
  insertShares : σ → List Share → Except StoreFault Unit × σ
  /-- Keeps a new block under an id of its own, which is returned. -/
  insertBlock : σ → FoundBlock → Except StoreFault Int × σ
  /-- Replaces the record of the block with the same id. -/
  updateBlock : σ → FoundBlock → Except StoreFault Unit × σ
  /-- The pending blocks of a pool. -/
  pendingBlocks : σ → String → Except StoreFault (List FoundBlock) × σ

end MergedMining
