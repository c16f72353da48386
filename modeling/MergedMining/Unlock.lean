import MergedMining.Chain
import MergedMining.Daemon.Cluster
import MergedMining.Failure
import MergedMining.Maturity

/-!
# Unlocking rewards

A pass looks at every pending block of the pool and asks the daemons of its chain what has become of it.  A
block whose first transaction is not the coinbase of the pool was found by somebody else.  A block that cannot
be looked at stays as it is and does not hinder the others.
-/

namespace MergedMining

/-- The pool whose blocks are looked at, the chains they may be on, and the store they are kept in. -/
structure Unlocker (σ : Type) where
  poolId : String
  clusters : List (Chain × Cluster)
  daemons : Daemons
  store : σ

namespace Unlocker

variable {σ : Type}

/-- The last cluster of a chain, with its place. -/
def cluster? (u : Unlocker σ) (chain : String) : Option (Nat × Chain × Cluster) :=
  (u.clusters.zipIdx.reverse.find? fun entry => entry.1.1.name = chain).map
    fun ((chain, cluster), index) => (index, chain, cluster)

/-- Asks the cluster at a place. -/
def ask {α : Type} (u : Unlocker σ) (index : Nat) (request : Node → Asking α) : Except Failure α × Unlocker σ :=
  match u.clusters[index]? with
  | none => (.error .noPrimary, u)
  | some (chain, cluster) =>
    let (answer, cluster, daemons) := cluster.call request u.daemons
    (answer.mapError .fault, { u with clusters := u.clusters.set index (chain, cluster), daemons })

/-- What a found block looks like after its transaction was seen; and whether that is something new. -/
def settle (before block : FoundBlock) (m : Maturity) : Bool × FoundBlock :=
  let block := { block with status := m.status, progress := m.progress, reward := m.reward }
  (!block.same before, block)

/-- Looks at one block: says whether its record has changed, and the record. -/
def examine (u : Unlocker σ) (block : FoundBlock) : Except Failure (Bool × FoundBlock) × Unlocker σ :=
  match u.cluster? block.chain with
  | none => (.error (.noNodes block.chain), u)
  | some (index, chain, _) =>
    match u.ask index fun node => node.getBlock block.hash with
    | (.error e, u) => (.error e, u)
    | (.ok remote, u) =>
      match remote.txids with
      | [] => (.error (.noTransactions block.hash), u)
      | txid :: _ =>
        match Hex.reversePairs txid with
        | .error e => (.error (.ofEncoding e), u)
        | .ok confirmation =>
          let filled := if block.confirmation.isEmpty then { block with confirmation } else block
          if filled.confirmation ≠ confirmation then
            (.ok (true, { filled with status := .orphaned, reward := 0 }), u)
          else
            match Hex.reversePairs filled.confirmation with
            | .error e => (.error (.ofEncoding e), u)
            | .ok txid =>
              match u.ask index fun node => node.getTransaction txid with
              | (.error e, u) => (.error e, u)
              | (.ok transaction, u) =>
                (.ok (settle block filled (.ofTransaction transaction chain.maturity)), u)

/-- Looks at blocks one after the other; says how many records were replaced on top of `updated`. -/
def examineAll [Store σ] (updated : Nat) : List FoundBlock → Unlocker σ → Except Failure Nat × Unlocker σ
  | [], u => (.ok updated, u)
  | block :: rest, u =>
    match u.examine block with
    | (.ok (true, block), u) =>
      match Store.updateBlock u.store block with
      | (.ok (), store) => examineAll (updated + 1) rest { u with store }
      | (.error e, store) =>
        (.error (.during (.updatingBlock block.chain block.height) (.store e)), { u with store })
    | (_, u) => examineAll updated rest u

/-- One pass over the pending blocks; says how many records were replaced. -/
def unlock [Store σ] (u : Unlocker σ) : Except Failure Nat × Unlocker σ :=
  match Store.pendingBlocks u.store u.poolId with
  | (.error e, store) => (.error (.during .loadingPending (.store e)), { u with store })
  | (.ok blocks, store) => examineAll 0 blocks { u with store }

end Unlocker

end MergedMining
