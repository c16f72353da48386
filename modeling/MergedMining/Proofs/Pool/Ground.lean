import MergedMining.Proofs.Extranonces
import MergedMining.Proofs.Pool.Traffic

/-!
# What is fixed about a pool

Whatever happens to a pool changes what its connections share, asks its daemons and its store, and nothing else
(`proceeds_run`).  Settings, chains, targets, the randomness and the answers of daemons are given when it is
started and stay as they are (`ground_run`).
-/

namespace MergedMining

open Stratum (Id)

/-- Everything that is fixed when a pool is started. -/
structure Ground where
  settings : PoolSettings
  chain : Chain
  script : Bytes
  others : List (Chain × Network × String × Bytes)
  target : Target
  draws : Draws
  reply : List Call → Call → Except CallFault Json
  ownSize : Nat
  minerSize : Nat

namespace Pool

variable {σ : Type} {p q : Pool σ}

/-- What is fixed about a pool. -/
def ground (p : Pool σ) : Ground where
  settings := p.settings
  chain := p.primary.chain
  script := p.primary.script
  others := p.others.map ChainNode.identity
  target := p.target
  draws := p.draws
  reply := p.daemons.reply
  ownSize := p.extranonces.ownSize
  minerSize := p.extranonces.minerSize

theorem buildWork_of_ground (h : q.ground = p.ground) : q.buildWork = p.buildWork := by
  have hsettings : q.settings = p.settings := congrArg Ground.settings h
  have hchain : q.primary.chain = p.primary.chain := congrArg Ground.chain h
  have hscript : q.primary.script = p.primary.script := congrArg Ground.script h
  unfold Pool.buildWork
  rw [hsettings, hchain, hscript]

theorem Outward.ground (h : p.Outward q) : q.ground = p.ground := by
  obtain ⟨_, _, _, _, rfl, hothers, hreply⟩ := h
  simp only [Pool.ground, hothers, hreply]

/-! ### What changes -/

/-- Two pools that differ at most outwardly and in what connections share, of which no extranonce is taken back. -/
def Proceeds (p q : Pool σ) : Prop :=
  ∃ jobs registry extranonces bans shares nextSession, p.extranonces.Grows extranonces ∧
    Pool.Outward { p with jobs, registry, extranonces, bans, shares, nextSession } q

theorem Outward.proceeds (h : p.Outward q) : p.Proceeds q :=
  ⟨p.jobs, p.registry, p.extranonces, p.bans, p.shares, p.nextSession, .refl _, h⟩

theorem Quiet.proceeds (h : p.Quiet q) : p.Proceeds q := by
  obtain ⟨registry, bans, rfl⟩ := h
  exact ⟨p.jobs, registry, p.extranonces, bans, p.shares, p.nextSession, .refl _, .refl _⟩

namespace Proceeds

theorem trans {r : Pool σ} (h : p.Proceeds q) (h' : q.Proceeds r) : p.Proceeds r := by
  obtain ⟨_, _, _, _, _, _, hgrows, _, _, _, _, rfl, hothers, hreply⟩ := h
  obtain ⟨jobs, registry, extranonces, bans, shares, nextSession, hgrows', hq⟩ := h'
  obtain ⟨cluster, others, daemons, store, rfl, hothers', hreply'⟩ := hq
  exact ⟨jobs, registry, extranonces, bans, shares, nextSession, hgrows.trans hgrows', cluster, others, daemons,
    store, rfl, hothers'.trans hothers, hreply'.trans hreply⟩

theorem extranonces (h : p.Proceeds q) : p.extranonces.Grows q.extranonces := by
  obtain ⟨_, _, _, _, _, _, hgrows, hq⟩ := h
  rw [hq.extranonces]
  exact hgrows

theorem ground (h : p.Proceeds q) : q.ground = p.ground := by
  obtain ⟨_, _, _, _, _, _, hgrows, hq⟩ := h
  rw [hq.ground]
  simp only [Pool.ground, hgrows.ownSize, hgrows.minerSize]

theorem loginChains (h : p.Proceeds q) : q.loginChains = p.loginChains := by
  obtain ⟨_, _, _, _, _, _, -, hq⟩ := h
  exact hq.loginChains

end Proceeds

theorem Submitted.proceeds {ip : Ip} {stage : Stage} {id : Id} {params : Json} {reaction : Reaction}
    (h : p.Submitted ip stage id params (reaction, q)) : p.Proceeds q := by
  cases h with
  | turnedAway => exact (Outward.refl p).proceeds
  | duplicate => exact ⟨_, p.registry, p.extranonces, p.bans, p.shares, p.nextSession, .refl _, .refl _⟩
  | refused => exact ⟨_, p.registry, p.extranonces, p.bans, p.shares, p.nextSession, .refl _, .refl _⟩
  | counted _ _ _ _ _ hq => exact ⟨_, p.registry, p.extranonces, p.bans, _, p.nextSession, .refl _, hq⟩

theorem Dispatched.proceeds {ip : Ip} {stage stage' : Stage} {id : Id} {method : String} {params : Json}
    {reaction : Reaction} (h : p.Dispatched ip stage id method params (reaction, stage', q)) : p.Proceeds q := by
  cases h with
  | answered => exact (Outward.refl p).proceeds
  | exhausted _ _ hdraw =>
    exact ⟨p.jobs, p.registry, _, p.bans, p.shares, p.nextSession, Extranonces.allocate_grows hdraw, .refl _⟩
  | subscribed _ _ _ hdraw =>
    exact ⟨p.jobs, p.registry, _, p.bans, p.shares, _, Extranonces.allocate_grows hdraw, .refl _⟩
  | authorized => exact ⟨p.jobs, _, p.extranonces, p.bans, p.shares, p.nextSession, .refl _, .refl _⟩
  | submitted _ h => exact h.proceeds

theorem Refreshed.proceeds {clean : Bool} {result : Except Failure Work} (h : p.Refreshed clean (result, q)) :
    p.Proceeds q := by
  cases h with
  | unfetched hq => exact hq.proceeds
  | unbuilt hq =>
    exact hq.proceeds.trans ⟨_, _, _, _, _, _, .refl _, .refl _⟩
  | published hq =>
    exact hq.proceeds.trans ⟨_, _, _, _, _, _, .refl _, .refl _⟩

end Pool

namespace Traffic

variable {σ : Type}

theorem Stepped.proceeds [Store σ] {t t' : Traffic σ} {e : Event} (h : t.Stepped e t') : t.pool.Proceeds t'.pool := by
  cases h with
  | idle => exact (Pool.Outward.refl _).proceeds
  | connected => exact (Pool.Outward.refl _).proceeds
  | quiet _ _ _ hq => exact hq.proceeds
  | requested _ _ h hq => exact h.proceeds.trans hq.proceeds
  | refreshed _ h => exact h.proceeds
  | flushed =>
    generalize t.pool.shares.flush t.pool.store = flushed
    exact ⟨t.pool.jobs, t.pool.registry, t.pool.extranonces, t.pool.bans, flushed.2.1, t.pool.nextSession, .refl _,
      t.pool.primary.cluster, t.pool.others, t.pool.daemons, flushed.2.2, rfl, rfl, rfl⟩
  | outward _ _ hq => exact hq.proceeds

theorem Stepped.ground [Store σ] {t t' : Traffic σ} {e : Event} (h : t.Stepped e t') :
    t'.pool.ground = t.pool.ground :=
  h.proceeds.ground

theorem proceeds_run [Store σ] (t : Traffic σ) (es : List Event) : t.pool.Proceeds (t.run es).pool :=
  run_induction (P := fun t' => t.pool.Proceeds t'.pool) (Pool.Outward.refl _).proceeds
    (fun _ _ _ h hstep => h.trans hstep.proceeds) es

theorem ground_run [Store σ] (t : Traffic σ) (es : List Event) : (t.run es).pool.ground = t.pool.ground :=
  (t.proceeds_run es).ground

end Traffic

end MergedMining
