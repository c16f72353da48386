import MergedMining.Pool.Candidate
import MergedMining.Pool.Refresh
import MergedMining.Pool.Service
import MergedMining.Proofs.Daemon.Replies

/-!
# What happens outside a pool

Calls to daemons and to the store leave a pool as it is, up to which nodes are active, the calls that were made
and what the store holds.  `Outward` says that two pools differ in nothing else, so whatever is handed in
(`submitCandidate_outward`) and asked for (`fetchTemplates_outward`) touches no job, no session, no extranonce,
no ban and no waiting share.
-/

namespace MergedMining

/-- What is fixed about a chain that a pool is connected to. -/
def ChainNode.identity (c : ChainNode) : Chain × Network × String × Bytes :=
  (c.chain, c.network, c.rewardAddress, c.script)

namespace Pool

variable {σ : Type} {p q r : Pool σ}

/-- Two pools that differ at most in active nodes, in calls made, and in what the store holds. -/
def Outward (p q : Pool σ) : Prop :=
  ∃ cluster others daemons store, q = { p with primary := { p.primary with cluster }, others, daemons, store } ∧
    others.map ChainNode.identity = p.others.map ChainNode.identity ∧ daemons.reply = p.daemons.reply

namespace Outward

theorem refl (p : Pool σ) : p.Outward p := ⟨p.primary.cluster, p.others, p.daemons, p.store, rfl, rfl, rfl⟩

theorem trans (hpq : p.Outward q) (hqr : q.Outward r) : p.Outward r := by
  obtain ⟨_, _, _, _, rfl, hothers, hreply⟩ := hpq
  obtain ⟨cluster, others, daemons, store, rfl, hothers', hreply'⟩ := hqr
  exact ⟨cluster, others, daemons, store, rfl, hothers'.trans hothers, hreply'.trans hreply⟩

theorem buildWork (h : p.Outward q) : q.buildWork = p.buildWork := by
  obtain ⟨_, _, _, _, rfl, -, -⟩ := h
  rfl

theorem jobs (h : p.Outward q) : q.jobs = p.jobs := by
  obtain ⟨_, _, _, _, rfl, -, -⟩ := h
  rfl

theorem shares (h : p.Outward q) : q.shares = p.shares := by
  obtain ⟨_, _, _, _, rfl, -, -⟩ := h
  rfl

theorem extranonces (h : p.Outward q) : q.extranonces = p.extranonces := by
  obtain ⟨_, _, _, _, rfl, -, -⟩ := h
  rfl

theorem registry (h : p.Outward q) : q.registry = p.registry := by
  obtain ⟨_, _, _, _, rfl, -, -⟩ := h
  rfl

theorem bans (h : p.Outward q) : q.bans = p.bans := by
  obtain ⟨_, _, _, _, rfl, -, -⟩ := h
  rfl

theorem nextSession (h : p.Outward q) : q.nextSession = p.nextSession := by
  obtain ⟨_, _, _, _, rfl, -, -⟩ := h
  rfl

theorem loginChains (h : p.Outward q) : q.loginChains = p.loginChains := by
  obtain ⟨cluster, others, daemons, store, rfl, hothers, -⟩ := h
  have hpairs : ∀ cs : List ChainNode,
      cs.map (fun c => (c.chain, c.network)) = (cs.map ChainNode.identity).map fun i => (i.1, i.2.1) := by
    intro cs
    rw [List.map_map]
    rfl
  show (p.primary.chain, p.primary.network) :: others.map (fun c => (c.chain, c.network)) = _
  rw [hpairs, hothers, ← hpairs]
  rfl

end Outward

/-! ### Calls -/

theorem askPrimary_outward {α : Type} {request : Node → Asking α} (h : ∀ node, (request node).KeepsReplies)
    (p : Pool σ) : p.Outward (p.askPrimary request).2 :=
  ⟨_, p.others, _, p.store, rfl, rfl, Cluster.call_reply h _ _⟩

theorem askAux_outward {α : Type} {request : ChainNode → Node → Asking α}
    (h : ∀ chain node, (request chain node).KeepsReplies) (p : Pool σ) : p.Outward (p.askAux request).2 := by
  unfold askAux
  rcases hothers : p.others with _ | ⟨aux, rest⟩
  · exact .refl p
  · refine ⟨p.primary.cluster, _, _, p.store, rfl, ?_, Cluster.call_reply (h aux) _ _⟩
    rw [hothers]
    rfl

theorem fetchTemplates_outward (p : Pool σ) : p.Outward p.fetchTemplates.2 := by
  have hprimary : p.Outward (p.askPrimary Node.getBlockTemplate).2 :=
    askPrimary_outward (fun node => node.keepsReplies_read _ _ _) p
  unfold fetchTemplates
  rcases hask : p.askPrimary Node.getBlockTemplate with ⟨e | template, q⟩
  · rw [hask] at hprimary
    exact hprimary
  · rw [hask] at hprimary
    have haux : q.Outward (q.askAux fun aux node => node.createAuxBlock aux.rewardAddress).2 :=
      askAux_outward (fun _ node => node.keepsReplies_read _ _ _) q
    dsimp only
    rcases hcreate : q.askAux fun aux node => node.createAuxBlock aux.rewardAddress with ⟨_ | _ | aux, r⟩
    all_goals
      rw [hcreate] at haux
      exact hprimary.trans haux

/-! ### Blocks that are handed in -/

theorem submitAux_outward (p : Pool σ) (block : Block) (status : ShareStatus) (session : Session) :
    p.Outward (p.submitAux block status session).2 := by
  unfold submitAux
  rcases p.others with _ | ⟨aux, rest⟩
  · exact .refl p
  rcases block.work.aux with _ | auxBlock
  · exact .refl p
  dsimp only
  rcases AuxPow.ofBlock block with e | proof
  · exact .refl p
  · have hask : p.Outward (p.askAux fun _ node => node.submitAuxBlock auxBlock.hash proof.toText).2 :=
      askAux_outward (fun _ node => node.keepsReplies_submit _ _ _) p
    dsimp only
    rcases hanswer : p.askAux fun _ node => node.submitAuxBlock auxBlock.hash proof.toText with ⟨_ | _ | _, q⟩
    all_goals
      rw [hanswer] at hask
      exact hask

theorem submitPrimary_outward (p : Pool σ) (block : Block) (status : ShareStatus) (session : Session) :
    p.Outward (p.submitPrimary block status session).2 := by
  unfold submitPrimary
  rcases block.submission with e | submission
  · exact .refl p
  · have hask : p.Outward (p.askPrimary fun node => node.submitBlock submission).2 :=
      askPrimary_outward (fun node => node.keepsReplies_submit _ _ _) p
    dsimp only
    rcases hanswer : p.askPrimary fun node => node.submitBlock submission with ⟨_ | _, q⟩
    all_goals
      rw [hanswer] at hask
      exact hask

variable [Store σ]

theorem recordBlock_outward (p : Pool σ) (block : FoundBlock) : p.Outward (p.recordBlock block) :=
  ⟨p.primary.cluster, p.others, p.daemons, _, rfl, rfl, rfl⟩

theorem settleSubmission_outward {accepted solved : ShareStatus} {result : Except Failure FoundBlock × Pool σ}
    (h : p.Outward result.2) : p.Outward (settleSubmission accepted solved result).2 := by
  rcases result with ⟨e | found, q⟩
  · exact h
  · exact h.trans (recordBlock_outward q found)

theorem submitCandidate_outward (p : Pool σ) (block : Block) (status : ShareStatus) (session : Session) :
    p.Outward (p.submitCandidate block status session).2 := by
  -- the merge-mined block is settled first, and the primary one after it
  have haux : p.Outward (if status.solvesAux then settleSubmission .valid .aux (p.submitAux block status session)
      else (.valid, p)).2 := by
    by_cases h : status.solvesAux = true
    · rw [if_pos h]
      exact settleSubmission_outward (submitAux_outward p block status session)
    · rw [if_neg h]
      exact .refl p
  unfold submitCandidate
  generalize (if status.solvesAux then settleSubmission .valid .aux (p.submitAux block status session)
    else (.valid, p)) = first at haux ⊢
  obtain ⟨accepted, q⟩ := first
  by_cases h : status.solvesPrimary = true
  · simp only [h, if_true]
    exact haux.trans (settleSubmission_outward (submitPrimary_outward q block status session))
  · simp only [h]
    exact haux

end Pool

/-! ### Recovery -/

theorem Service.recover_outward {σ : Type} (p : Pool σ) (index : Nat) : p.Outward (Service.recover p index) := by
  rcases index with _ | index
  · exact ⟨_, p.others, _, p.store, rfl, rfl, Cluster.recover_reply _ _⟩
  · rcases hother : p.others[index]? with _ | c
    · simp only [Service.recover, hother]
      exact .refl p
    · simp only [Service.recover, hother]
      refine ⟨p.primary.cluster, _, _, p.store, rfl, ?_, Cluster.recover_reply _ _⟩
      obtain ⟨hindex, hc⟩ := List.getElem?_eq_some_iff.1 hother
      rw [List.map_set]
      show (p.others.map ChainNode.identity).set index c.identity = _
      rw [← List.map_set, ← hc, List.set_getElem_self]

theorem Service.stopRecovery_outward {σ : Type} (p : Pool σ) : p.Outward (Service.stopRecovery p) := by
  refine ⟨p.primary.cluster.cancel, _, p.daemons, p.store, rfl, ?_, rfl⟩
  rw [List.map_map]
  rfl

end MergedMining
