import MergedMining.Proofs.Pool.History
import MergedMining.Proofs.Pool.Steady

/-!
# The coinbases of accepted work

Jobs are built with room for eight bytes, and eight bytes are what the extranonces of a miner have together
(`wellBuilt_run`).  So the coinbase of every submission that a pool accepts is one well-formed transaction
(`isCoinbase_of_build_of_accepted`).
-/

namespace MergedMining

open Stratum (Id Message)

namespace Traffic

variable {σ : Type} {t t' : Traffic σ} {e : Traffic.Event}

/-! ### Jobs and extranonces -/

/-- Every job in use was built for this pool, and every extranonce has the size that the pool gives out. -/
structure WellBuilt (t : Traffic σ) : Prop where
  jobs : ∀ entry ∈ t.pool.jobs.valid, ∃ template aux jobId notify,
    t.pool.buildWork template aux jobId = .ok (entry.2, notify)
  extranonces : ∀ c ∈ t.connections, ∀ subscription, c.stage.subscription? = some subscription →
    subscription.extranonce1.bytes.length = t.pool.extranonces.ownSize

private theorem jobs_step [Store σ]
    (h : ∀ entry ∈ t.pool.jobs.valid, ∃ template aux jobId notify,
      t.pool.buildWork template aux jobId = .ok (entry.2, notify)) (hstep : t.Stepped e t') :
    ∀ entry ∈ t'.pool.jobs.valid, ∃ template aux jobId notify,
      t'.pool.buildWork template aux jobId = .ok (entry.2, notify) := by
  rw [Pool.buildWork_of_ground hstep.ground]
  rcases hstep.jobs with ⟨clean, work, q, -, hrefresh, hjobs⟩ | ⟨-, -, hjobs⟩ | hjobs
  · rw [hjobs]
    intro entry hentry
    rcases List.mem_cons.1 hentry with rfl | hentry
    · obtain ⟨template, aux, notify, hbuilt⟩ := Pool.buildWork_of_refresh hrefresh
      exact ⟨template, aux, _, notify, hbuilt⟩
    · split at hentry
      · cases hentry
      · exact h entry (List.mem_filter.1 hentry).1
  · rw [hjobs]
    exact h
  · rw [hjobs]
    rcases t.handedIn? e with _ | header
    · exact h
    · exact h

private theorem jobs_run [Store σ] {p : Pool σ} (hfresh : p.IsFresh) (es : List Event) :
    ∀ entry ∈ ((ofPool p).run es).pool.jobs.valid, ∃ template aux jobId notify,
      ((ofPool p).run es).pool.buildWork template aux jobId = .ok (entry.2, notify) := by
  refine run_induction (P := fun t => ∀ entry ∈ t.pool.jobs.valid, ∃ template aux jobId notify,
    t.pool.buildWork template aux jobId = .ok (entry.2, notify)) (fun entry hentry => ?_)
    (fun _ _ _ h hstep => jobs_step h hstep) es
  have hnone : p.jobs.valid = [] := by rw [hfresh.jobs]; rfl
  rw [show (ofPool p).pool.jobs.valid = [] from hnone] at hentry
  cases hentry

theorem wellBuilt_run [Store σ] {p : Pool σ} (hfresh : p.IsFresh) (hdraws : ∀ k size, (p.draws k size).length = size)
    (es : List Event) : ((ofPool p).run es).WellBuilt := by
  refine ⟨jobs_run hfresh es, fun c hc subscription hstage => ?_⟩
  obtain ⟨place, hplace⟩ := List.mem_iff_getElem?.1 hc
  have hlength := ((explained_run p es hplace).hasSubscribed hstage).length hdraws
  exact hlength.trans (congrArg Ground.ownSize (ground_run (ofPool p) es)).symm

end Traffic

/-! ### Accepted work -/

theorem Reaction.refuse_ne_answer (id : Id) (refusal : Stratum.Refusal) (value : Json) :
    Reaction.refuse id refusal ≠ .answer (.result id value) := by
  intro h
  have hmessages := congrArg Reaction.messages h
  cases hmessages

/-- The block of a submission that is answered with true was rebuilt. -/
theorem Pool.rebuilds_of_accepted {σ : Type} [Store σ] {p : Pool σ} {ip : Ip} {stage : Stage} {id : Id}
    {params : Json} (h : (p.submit ip stage id params).1 = .answer (.result id (.bool true))) :
    ∃ session submit work block header, p.Rebuilds stage params session submit work block header := by
  have hsubmitted := p.submit_submitted ip stage id params
  rcases hsubmit : p.submit ip stage id params with ⟨reaction, q⟩
  rw [hsubmit] at h hsubmitted
  cases hsubmitted with
  | turnedAway => exact absurd h (Reaction.refuse_ne_answer _ _ _)
  | duplicate => exact absurd h (Reaction.refuse_ne_answer _ _ _)
  | refused => exact absurd h (Reaction.refuse_ne_answer _ _ _)
  | counted hrebuilds => exact ⟨_, _, _, _, _, hrebuilds⟩

namespace Traffic

variable {σ : Type} {t : Traffic σ}

/-- A block that was rebuilt for a pool has a well-formed coinbase. -/
private theorem isCoinbase_of_rebuilds (h : t.WellBuilt) (hsize : t.pool.extranonces.ownSize +
    t.pool.extranonces.minerSize = Pool.reserved) {place : Nat} {c : Connection} {params : Json} {session : Session}
    {submit : Stratum.Submit} {work : Work} {block : Block} {header : Bytes} (hc : t.connection? place = some c)
    (hrebuilds : t.pool.Rebuilds c.stage params session submit work block header) :
    ∃ signed, Work.signatureWith t.pool.settings.signature work.aux = .ok signed ∧
      (block.coinbase.length < 2 ^ 64 → Coinbase.IsCoinbase work.template t.pool.primary.script signed
        (session.extranonce1.bytes ++ submit.extranonce2.bytes) block.coinbase) := by
  have hmem : (submit.jobId, work) ∈ t.pool.jobs.valid := by
    obtain ⟨front, back, hvalid, -⟩ := List.lookup_eq_some_iff.1 hrebuilds.job
    rw [hvalid]
    exact List.mem_append_right _ List.mem_cons_self
  obtain ⟨template, aux, jobId, notify, hbuilt⟩ := h.jobs _ hmem
  obtain ⟨_, signed, coinbase, _, -, hsigned, hcoinbase, -, rfl, -⟩ :=
    Work.ofTemplate_eq_ok.1 (Work.build_eq_ok.1 hbuilt)
  obtain ⟨_, _, -, -, rfl⟩ := Block.makeHeader_eq_ok.1 hrebuilds.made
  refine ⟨signed, hsigned, fun hlen => ?_⟩
  have hown : session.extranonce1.bytes.length = t.pool.extranonces.ownSize :=
    h.extranonces c (List.mem_of_getElem? (getElem?_of_connection? hc)) session.toSubscription
      (by rw [hrebuilds.authorized]; rfl)
  have hreserved : (session.extranonce1.bytes ++ submit.extranonce2.bytes).length = Pool.reserved := by
    rw [List.length_append, hown, hrebuilds.size, hsize]
  rw [← hreserved] at hcoinbase
  exact Coinbase.around_isCoinbase hcoinbase hlen

private theorem exists_sampleCoinbase :
    ∃ coinbase, Coinbase.build sampleTemplate [0x51] [0x2f] 8 = .ok coinbase ∧
      ∀ extranonce : Bytes, extranonce.length = 8 → (coinbase.around extranonce).length < 2 ^ 64 := by
  have hsizes : (Coinbase.build sampleTemplate [0x51] [0x2f] 8).toOption.map
      (fun c => (c.initial.length, c.final.length)) = some (46, 32) := by
    decide +kernel
  rcases hbuild : Coinbase.build sampleTemplate [0x51] [0x2f] 8 with e | coinbase
  · rw [hbuild] at hsizes
    cases hsizes
  · rw [hbuild] at hsizes
    refine ⟨coinbase, rfl, fun extranonce hlen => ?_⟩
    have hlengths := Prod.mk.inj (Option.some.inj hsizes)
    rw [Coinbase.around, List.length_append, List.length_append, hlengths.1, hlengths.2, hlen]
    decide

/-- The halves of a coinbase are one transaction around every extranonce of the size that was kept free, and so is the
coinbase of every submission that a pool accepts in the course of a run.  Lengths are counted in 64 bits. -/
theorem isCoinbase_of_build_of_accepted [Store σ] :
    (∀ {template : BlockTemplate} {script signature extranonce : Bytes} {size : Nat} {coinbase : Coinbase},
      Coinbase.build template script signature size = .ok coinbase → extranonce.length = size →
      (coinbase.around extranonce).length < 2 ^ 64 →
      Coinbase.IsCoinbase template script signature extranonce (coinbase.around extranonce)) ∧
    ∀ {p : Pool σ} {es : List Event} {place : Nat} {c : Connection} {id : Id} {params : Json},
      p.IsFresh → (∀ k size, (p.draws k size).length = size) → ((ofPool p).run es).connection? place = some c →
      (((ofPool p).run es).pool.submit c.ip c.stage id params).1 = .answer (.result id (.bool true)) →
      ∃ session submit work block header signed,
        ((ofPool p).run es).pool.Rebuilds c.stage params session submit work block header ∧
        Work.signatureWith p.settings.signature work.aux = .ok signed ∧
        (block.coinbase.length < 2 ^ 64 → Coinbase.IsCoinbase work.template p.primary.script signed
          (session.extranonce1.bytes ++ submit.extranonce2.bytes) block.coinbase) := by
  constructor
  · intro template script signature extranonce size coinbase hbuild hsize hlen
    subst hsize
    exact Coinbase.around_isCoinbase hbuild hlen
  · intro p es place c id params hfresh hdraws hc haccepted
    have hground : ((ofPool p).run es).pool.ground = p.ground := ground_run (ofPool p) es
    have hsize : ((ofPool p).run es).pool.extranonces.ownSize + ((ofPool p).run es).pool.extranonces.minerSize =
        Pool.reserved := by
      rw [show ((ofPool p).run es).pool.extranonces.ownSize = _ from congrArg Ground.ownSize hground,
        show ((ofPool p).run es).pool.extranonces.minerSize = _ from congrArg Ground.minerSize hground]
      show p.extranonces.ownSize + p.extranonces.minerSize = _
      rw [hfresh.extranonces]
      rfl
    obtain ⟨session, submit, work, block, header, hrebuilds⟩ := Pool.rebuilds_of_accepted haccepted
    obtain ⟨signed, hsigned, hcoinbase⟩ :=
      isCoinbase_of_rebuilds (wellBuilt_run hfresh hdraws es) hsize hc hrebuilds
    rw [show ((ofPool p).run es).pool.settings = p.settings from congrArg Ground.settings hground] at hsigned
    rw [show ((ofPool p).run es).pool.primary.script = p.primary.script from congrArg Ground.script hground]
      at hcoinbase
    exact ⟨session, submit, work, block, header, signed, hrebuilds, hsigned, hcoinbase⟩

theorem isCoinbase_of_build_of_accepted_sample :
    (∃ coinbase, Coinbase.build sampleTemplate [0x51] [0x2f] 8 = .ok coinbase ∧
      (coinbase.around (List.replicate 8 1)).length < 2 ^ 64 ∧ Coinbase.IsCoinbase sampleTemplate [0x51] [0x2f]
        (List.replicate 8 1) (coinbase.around (List.replicate 8 1))) ∧
    ∃ c params, ((ofPool samplePool).run sampleStart).connection? 0 = some c ∧
      (((ofPool samplePool).run sampleStart).pool.submit c.ip c.stage (.text "c") params).1 =
        .answer (.result (.text "c") (.bool true)) ∧
      ∃ session submit work block header signed,
        ((ofPool samplePool).run sampleStart).pool.Rebuilds c.stage params session submit work block header ∧
        Work.signatureWith samplePool.settings.signature work.aux = .ok signed ∧ block.coinbase.length < 2 ^ 64 ∧
        Coinbase.IsCoinbase work.template samplePool.primary.script signed
          (session.extranonce1.bytes ++ submit.extranonce2.bytes) block.coinbase := by
  obtain ⟨coinbase, hbuild, hlen⟩ := exists_sampleCoinbase
  refine ⟨⟨coinbase, hbuild, hlen _ rfl, (@isCoinbase_of_build_of_accepted Ledger _).1 hbuild rfl (hlen _ rfl)⟩, ?_⟩
  obtain ⟨work, notify, hwork⟩ := exists_sampleWork
  obtain ⟨_, _, coinbase', _, -, hsigned, hbuild', -, hbuilt, -⟩ :=
    Work.ofTemplate_eq_ok.1 (Work.build_eq_ok.1 hwork)
  cases hsigned
  rw [hbuild] at hbuild'
  cases hbuild'
  obtain ⟨block, hmade⟩ := Block.exists_sampleBlock (Work.template_eq (Work.build_eq_ok.1 hwork))
    ([7, 7, 7, 7] ++ [0, 0, 0, 0]) ⟨0⟩ ⟨0x6553f101⟩
  obtain ⟨_, _, -, -, hblock⟩ := Block.makeHeader_eq_ok.1 hmade
  have hsize : block.coinbase.length < 2 ^ 64 := by
    rw [hblock, hbuilt]
    exact hlen _ rfl
  obtain ⟨header, hheader⟩ := Block.exists_header hmade
  obtain ⟨hstart, -, hjob, hnew⟩ := isSample_start hwork
  obtain ⟨c, params, hc, -, -, hrebuilds⟩ := hstart.rebuilds hmade hheader reads_zero hjob
  obtain ⟨_, _, hsubmit, -, -⟩ :=
    Pool.submit_of_rebuilds hrebuilds (hnew _) (by rw [hbuilt]; rfl) (by rw [hbuilt]) c.ip
    (.text "c")
  have haccepted : (((ofPool samplePool).run sampleStart).pool.submit c.ip c.stage (.text "c") params).1 =
      .answer (.result (.text "c") (.bool true)) := by
    rw [hsubmit]
  obtain ⟨_, _, _, _, _, signed, hrebuilds', hsigned, hcoinbase⟩ :=
    isCoinbase_of_build_of_accepted.2 samplePool_isFresh (fun _ _ => List.length_replicate) hc haccepted
  obtain ⟨rfl, rfl, rfl, rfl, rfl⟩ := hrebuilds.unique hrebuilds'
  exact ⟨c, params, hc, haccepted, _, _, _, _, _, signed, hrebuilds, hsigned, hsize, hcoinbase hsize⟩

end Traffic

end MergedMining
