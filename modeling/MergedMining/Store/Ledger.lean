import MergedMining.Store.Basic

/-!
# A store in memory

A `Ledger` keeps everything in the order it came.  Blocks are numbered from one.  For each operation a number of
upcoming calls may be planned to fail.
-/

namespace MergedMining

/-- The operations of a store, by name. -/
inductive StoreOperation
  | insertShares
  | insertBlock
  | updateBlock
  | pendingBlocks
  deriving Repr, DecidableEq

/-- A store in memory. -/
structure Ledger where
  shares : List Share
  blocks : List FoundBlock
  failures : StoreOperation → Nat

namespace Ledger

/-- A ledger with nothing in it. -/
def empty : Ledger := ⟨[], [], fun _ => 0⟩

/-- Plans the next calls of an operation to fail. -/
def plan (l : Ledger) (operation : StoreOperation) (times : Nat) : Ledger :=
  { l with failures := fun o => if o = operation then times else l.failures o }

/-- Does what an operation asks, or uses up one of its planned failures. -/
def attempt {α : Type} (l : Ledger) (operation : StoreOperation)
    (run : Ledger → Except StoreFault α × Ledger) : Except StoreFault α × Ledger :=
  match l.failures operation with
  | 0 => run l
  | n + 1 => (.error .unavailable, l.plan operation n)

/-- Replaces the first block with the id of the given one. -/
def replace (block : FoundBlock) : List FoundBlock → Option (List FoundBlock)
  | [] => none
  | b :: rest => if b.id = block.id then some (block :: rest) else (replace block rest).map (b :: ·)

instance : Store Ledger where
  insertShares l shares := l.attempt .insertShares fun l => (.ok (), { l with shares := l.shares ++ shares })
  insertBlock l block := l.attempt .insertBlock fun l =>
    let id : Int := l.blocks.length + 1
    (.ok id, { l with blocks := l.blocks ++ [{ block with id }] })
  updateBlock l block := l.attempt .updateBlock fun l =>
    match replace block l.blocks with
    | some blocks => (.ok (), { l with blocks })
    | none => (.error (.unknownBlock block.id), l)
  pendingBlocks l poolId := l.attempt .pendingBlocks fun l =>
    (.ok (l.blocks.filter fun b => b.poolId = poolId ∧ b.status = .pending), l)

end Ledger

end MergedMining
