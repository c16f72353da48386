import MergedMining.Proofs.Daemon.Log
import MergedMining.Proofs.Hex.Digits
import MergedMining.Unlock

/-!
# One look at a found block

A look asks the daemons for the block and, when its first transaction is the coinbase of the pool, for that
transaction.  It leaves the store alone.  When it succeeds both were answered, and `Judged` says which records
can come of that: a block whose coinbase is not the one recorded is orphaned without asking for a transaction,
and every other one is settled by what its transaction says.
-/

namespace MergedMining

open Daemons (Exchange Learned)

/-! ### What the daemons report -/

/-- The first transaction that a block is reported with. -/
def BlockInfo.firstOfJson? (v : Json) : Option String := (BlockInfo.ofJson? v).bind (·.txids.head?)

/-- Whether a block was reported with this transaction at its start. -/
def Daemons.Reported (new : List Exchange) (hash txid : String) : Prop :=
  Learned new "getblock" [.str hash] BlockInfo.firstOfJson? txid

open Daemons (Reported)

/-- What can come of a look at a block.  A recorded coinbase that is not the reported one orphans it; otherwise
the reported one is what the wallet was asked about. -/
inductive Judged (new : List Exchange) (b : FoundBlock) : FoundBlock → Prop
  | disowned {txid confirmation : String} (hreported : Reported new b.hash txid)
      (hconfirmation : Hex.reversePairs txid = .ok confirmation) (hrecorded : b.confirmation ≠ "")
      (hne : b.confirmation ≠ confirmation) : Judged new b { b with status := .orphaned, reward := 0 }
  | settled {txid confirmation : String} {t : WalletTransaction} {chain : Chain}
      (hreported : Reported new b.hash txid) (hconfirmation : Hex.reversePairs txid = .ok confirmation)
      (hrecorded : b.confirmation = "" ∨ b.confirmation = confirmation) (hchain : chain.name = b.chain)
      (htransaction : Learned new "gettransaction" [.str txid.toLower] WalletTransaction.ofJson? t) :
      Judged new b { b with
        confirmation
        status := (Maturity.ofTransaction t chain.maturity).status
        progress := (Maturity.ofTransaction t chain.maturity).progress
        reward := (Maturity.ofTransaction t chain.maturity).reward }

theorem Judged.mono {new newer : List Exchange} {b b' : FoundBlock} (h : Judged new b b') (hsubset : new ⊆ newer) :
    Judged newer b b' := by
  cases h with
  | disowned hreported hconfirmation hrecorded hne =>
    exact .disowned (hreported.mono hsubset) hconfirmation hrecorded hne
  | settled hreported hconfirmation hrecorded hchain htransaction =>
    exact .settled (hreported.mono hsubset) hconfirmation hrecorded hchain (htransaction.mono hsubset)

namespace Unlocker

variable {σ : Type}

/-- What an unlocker is after some more exchanges with the daemons; the store is as before. -/
structure Onward (u : Unlocker σ) (new : List Exchange) (v : Unlocker σ) : Prop where
  poolId : v.poolId = u.poolId
  chains : v.clusters.map Prod.fst = u.clusters.map Prod.fst
  store : v.store = u.store
  daemons : u.daemons.After new v.daemons

variable {u v w : Unlocker σ} {new newer : List Exchange}

theorem Onward.refl (u : Unlocker σ) : u.Onward [] u := ⟨rfl, rfl, rfl, .refl _⟩

theorem Onward.trans (h : u.Onward new v) (h' : v.Onward newer w) : u.Onward (newer ++ new) w :=
  ⟨h'.poolId.trans h.poolId, h'.chains.trans h.chains, h'.store.trans h.store, h.daemons.trans h'.daemons⟩

/-! ### Asking -/

/-- What the nodes of a place are asked for is asked for at least once, and nothing else is, looks after the
nodes apart. -/
theorem ask_read {α : Type} (u : Unlocker σ) {index : Nat} (hindex : index < u.clusters.length) (method : String)
    (params : List Json) (decode : Json → Option α) :
    ∃ new, u.Onward new (u.ask index fun node => node.read method params decode).2 ∧
      (∀ x ∈ new, (x.call.method = method ∧ x.call.params = .arr params) ∨ x.call.method = "getconnectioncount") ∧
      (∃ x ∈ new, x.call.method = method ∧ x.call.params = .arr params) ∧
      ∀ a, (u.ask index fun node => node.read method params decode).1 = .ok a →
        Learned new method params decode a := by
  unfold ask
  rw [List.getElem?_eq_getElem hindex]
  rcases hentry : u.clusters[index] with ⟨chain, cluster⟩
  obtain ⟨later, hafter, honly, hlearned⟩ := cluster.call_read method params decode u.daemons
  dsimp only
  rcases hcall : cluster.call (fun node => node.read method params decode) u.daemons with ⟨answer, cluster', daemons⟩
  rw [hcall] at hafter hlearned
  refine ⟨_, ⟨rfl, ?_, rfl, hafter⟩, ?_, ⟨_, List.mem_append_right _ (List.mem_singleton_self _), rfl, rfl⟩, ?_⟩
  · have hplace : index < (u.clusters.map Prod.fst).length := by rwa [List.length_map]
    have hchain : (u.clusters.map Prod.fst)[index] = chain := by rw [List.getElem_map, hentry]
    have hsame := List.set_getElem_self hplace
    rw [hchain] at hsame
    exact (List.map_set).trans hsame
  · intro x hx
    rcases List.mem_append.1 hx with hx | hx
    · exact honly x hx
    · rw [List.mem_singleton.1 hx]
      exact .inl ⟨rfl, rfl⟩
  · intro a ha
    exact hlearned a (Outcome.mapError_eq_ok.1 ha)

theorem of_cluster? {name : String} {index : Nat} {chain : Chain} {cluster : Cluster}
    (h : u.cluster? name = some (index, chain, cluster)) : index < u.clusters.length ∧ chain.name = name := by
  obtain ⟨⟨⟨own, nodes⟩, place⟩, hfind, hentry⟩ := Option.map_eq_some_iff.1 h
  cases hentry
  have hmem := List.mem_reverse.1 (List.mem_of_find?_eq_some hfind)
  have hname := List.find?_some hfind
  exact ⟨(List.mem_zipIdx' hmem).1, of_decide_eq_true hname⟩

/-! ### Looking -/

/-- A look begins with the block, and learns its first transaction when that is answered. -/
private theorem ask_getBlock (u : Unlocker σ) {index : Nat} (hindex : index < u.clusters.length) (hash : String) :
    ∃ new, u.Onward new (u.ask index fun node => node.getBlock hash).2 ∧
      (∀ x ∈ new, x.call.method ≠ "gettransaction") ∧
      ∀ remote txid rest, (u.ask index fun node => node.getBlock hash).1 = .ok remote → remote.txids = txid :: rest →
        Reported new hash txid := by
  obtain ⟨new, honward, honly, -, hlearned⟩ := u.ask_read hindex "getblock" [.str hash] BlockInfo.ofJson?
  refine ⟨new, honward, fun x hx => ?_, fun remote txid rest hremote htxids => ?_⟩
  · rcases honly x hx with ⟨hmethod, -⟩ | hmethod
    · rw [hmethod]
      decide
    · rw [hmethod]
      decide
  · obtain ⟨x, hx, hmethod, hparams, value, hvalue, hdecode⟩ := hlearned remote hremote
    refine ⟨x, hx, hmethod, hparams, value, hvalue, ?_⟩
    rw [BlockInfo.firstOfJson?, hdecode, Option.bind_some, htxids]
    rfl

section Own

variable {b : FoundBlock} {index : Nat} {chain : Chain} {cluster : Cluster} {remote : BlockInfo}
  {txid confirmation : String} {rest : List String}

/-- A look goes on to the transaction when nothing else than the reported coinbase is recorded. -/
theorem examine_of_own (hcluster : u.cluster? b.chain = some (index, chain, cluster))
    (hblock : (u.ask index fun node => node.getBlock b.hash) = (.ok remote, v)) (htxids : remote.txids = txid :: rest)
    (hconfirmation : Hex.reversePairs txid = .ok confirmation)
    (hrecorded : b.confirmation = "" ∨ b.confirmation = confirmation) :
    u.examine b =
      match v.ask index fun node => node.getTransaction txid.toLower with
      | (.error e, w) => (.error e, w)
      | (.ok t, w) => (.ok (settle b { b with confirmation } (.ofTransaction t chain.maturity)), w) := by
  have hfilled : (if b.confirmation.isEmpty then { b with confirmation } else b) = { b with confirmation } := by
    rcases hrecorded with hnone | hsome
    · rw [if_pos (String.isEmpty_iff.2 hnone)]
    · subst hsome
      exact ite_self _
  unfold examine
  simp only [hcluster, hblock, htxids, hconfirmation, hfilled, Hex.reversePairs_reversePairs hconfirmation]
  exact if_neg (not_not.2 rfl)

/-- Such a look asks for that transaction and for no other one. -/
theorem examine_own_asks (hcluster : u.cluster? b.chain = some (index, chain, cluster))
    (hblock : (u.ask index fun node => node.getBlock b.hash) = (.ok remote, v)) (htxids : remote.txids = txid :: rest)
    (hconfirmation : Hex.reversePairs txid = .ok confirmation)
    (hrecorded : b.confirmation = "" ∨ b.confirmation = confirmation) :
    ∃ new, u.Onward new (u.examine b).2 ∧ (∃ x ∈ new, x.call.method = "gettransaction") ∧
      (∀ x ∈ new, x.call.method = "gettransaction" → x.call.params = .arr [.str txid.toLower]) ∧
      ∀ changed b', (u.examine b).1 = .ok (changed, b') → Judged new b b' := by
  obtain ⟨hindex, hchain⟩ := of_cluster? hcluster
  obtain ⟨older, holder, hother, hfirst⟩ := u.ask_getBlock hindex b.hash
  rw [hblock] at holder hfirst
  have hreported := hfirst remote txid rest rfl htxids
  have hindex' : index < v.clusters.length := by
    rw [← List.length_map Prod.fst, holder.chains, List.length_map]
    exact hindex
  obtain ⟨newer, hnewer, honly, ⟨x, hx, hmethod, -⟩, hlearned⟩ :=
    v.ask_read hindex' "gettransaction" [.str txid.toLower] WalletTransaction.ofJson?
  have hasked : (v.ask index fun node => node.getTransaction txid.toLower) =
    v.ask index fun node => node.read "gettransaction" [.str txid.toLower] WalletTransaction.ofJson? := rfl
  have hparams : ∀ x ∈ newer ++ older, x.call.method = "gettransaction" →
      x.call.params = .arr [.str txid.toLower] := by
    intro x hx hcalled
    rcases List.mem_append.1 hx with hx | hx
    · rcases honly x hx with ⟨-, hparams⟩ | hlook
      · exact hparams
      · rw [hcalled] at hlook
        exact absurd hlook (by decide)
    · exact absurd hcalled (hother x hx)
  rw [examine_of_own hcluster hblock htxids hconfirmation hrecorded, hasked]
  refine ⟨newer ++ older, ?_, ⟨x, List.mem_append_left _ hx, hmethod⟩, hparams, ?_⟩
  · rcases hwallet : v.ask index fun node => node.read "gettransaction" [.str txid.toLower] WalletTransaction.ofJson?
      with ⟨e | t, w⟩
    · rw [hwallet] at hnewer
      exact holder.trans hnewer
    · rw [hwallet] at hnewer
      exact holder.trans hnewer
  · intro changed b' hb'
    rcases hwallet : v.ask index fun node => node.read "gettransaction" [.str txid.toLower] WalletTransaction.ofJson?
      with ⟨e | t, w⟩
    · rw [hwallet] at hb'
      cases hb'
    · rw [hwallet] at hb' hlearned
      cases hb'
      exact .settled (hreported.mono (List.subset_append_right _ _)) hconfirmation hrecorded hchain
        ((hlearned t rfl).mono (List.subset_append_left _ _))

end Own

/-- A look makes calls and nothing else, and when it succeeds the record is one that the answers account for. -/
theorem examine_judged (u : Unlocker σ) (b : FoundBlock) :
    ∃ new, u.Onward new (u.examine b).2 ∧ ∀ changed b', (u.examine b).1 = .ok (changed, b') → Judged new b b' := by
  rcases hcluster : u.cluster? b.chain with _ | ⟨index, chain, cluster⟩
  · simp only [examine, hcluster]
    exact ⟨[], .refl u, nofun⟩
  obtain ⟨new, honward, -, hfirst⟩ := u.ask_getBlock (of_cluster? hcluster).1 b.hash
  rcases hblock : u.ask index fun node => node.getBlock b.hash with ⟨e | remote, v⟩
  · rw [hblock] at honward
    simp only [examine, hcluster, hblock]
    exact ⟨new, honward, nofun⟩
  rw [hblock] at honward hfirst
  rcases htxids : remote.txids with _ | ⟨txid, rest⟩
  · simp only [examine, hcluster, hblock, htxids]
    exact ⟨new, honward, nofun⟩
  rcases hconfirmation : Hex.reversePairs txid with e | confirmation
  · simp only [examine, hcluster, hblock, htxids, hconfirmation]
    exact ⟨new, honward, nofun⟩
  by_cases hrecorded : b.confirmation = "" ∨ b.confirmation = confirmation
  · obtain ⟨all, hall, -, -, hjudged⟩ := examine_own_asks hcluster hblock htxids hconfirmation hrecorded
    exact ⟨all, hall, hjudged⟩
  · obtain ⟨hsome, hne⟩ := not_or.1 hrecorded
    have hfilled : (if b.confirmation.isEmpty then { b with confirmation } else b) = b :=
      if_neg fun h => hsome (String.isEmpty_iff.1 h)
    simp only [examine, hcluster, hblock, htxids, hconfirmation, hfilled, if_pos hne]
    refine ⟨new, honward, fun changed b' hb' => ?_⟩
    cases hb'
    exact .disowned (hfirst remote txid rest rfl htxids) hconfirmation hsome hne

end Unlocker

end MergedMining
