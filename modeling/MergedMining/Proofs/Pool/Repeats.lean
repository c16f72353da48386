import MergedMining.Proofs.Pool.Alone
import MergedMining.Proofs.Pool.Duplicates
import MergedMining.Proofs.Pool.History

/-!
# Work that is handed in again

A submission is called a duplicate exactly if its header was handed in before, with no clean start and fewer
other headers after it than the pool remembers (`callsDuplicate_iff`).  What became of the first submission does
not matter: work that was turned away, and for which nobody got a share, is a duplicate when it comes again
(`not_credits_of_callsDuplicate`).
-/

namespace MergedMining

open Stratum (Id Refusal)

theorem Jobs.get?_isDuplicate (j : Jobs) (key : Bytes) (id : Stratum.JobId) :
    (j.isDuplicate key).2.get? id = j.get? id := by
  unfold Jobs.isDuplicate
  rcases j.seen.touch key with ⟨_, _⟩
  rfl

namespace Pool

variable {σ : Type} {p : Pool σ} {stage : Stage} {params : Json} {header : Bytes} {template : BlockTemplate}
  {aux : AuxBlock}

/-- A header that is handed in belongs to a block that was rebuilt. -/
theorem exists_rebuilds [Store σ] (h : p.handedIn? stage params = some header) :
    ∃ session submit work block, p.Rebuilds stage params session submit work block header := by
  have hsubmitted := p.submit_submitted (.four []) stage .null params
  generalize p.submit (.four []) stage .null params = result at hsubmitted
  cases hsubmitted with
  | turnedAway hnone =>
    rw [h] at hnone
    cases hnone
  | duplicate hrebuilds | refused hrebuilds | counted hrebuilds =>
    have hsame := hrebuilds.handedIn?
    rw [h] at hsame
    cases hsame
    exact ⟨_, _, _, _, hrebuilds⟩

theorem fetchTemplates_of_offers_aux (h : p.Offers template) (hothers : p.others ≠ [])
    (haux : ∀ calls call, call.method = "createauxblock" →
      ∃ v, p.daemons.reply calls call = .ok v ∧ AuxBlock.ofJson? v = some aux) :
    p.fetchTemplates.1 = .ok (template, some aux) := by
  obtain ⟨v, hreply, hdecode⟩ := h p.daemons.calls
    ⟨p.primary.cluster.activeNode, "getblocktemplate", .arr [.obj [("rules", .arr [.str "mweb", .str "segwit"])]]⟩ rfl
  have hread : ((Node.getBlockTemplate p.primary.cluster.activeNode).run p.daemons).1 = .ok template :=
    Node.run_read_of_reply hreply hdecode
  have hanswer : (p.askPrimary Node.getBlockTemplate).1 = .ok template := by
    rw [askPrimary, Cluster.call_of_first hread]
  have hq : p.Outward (p.askPrimary Node.getBlockTemplate).2 :=
    askPrimary_outward (fun node => node.keepsReplies_read _ _ _) p
  unfold fetchTemplates
  generalize p.askPrimary Node.getBlockTemplate = result at hanswer hq ⊢
  obtain ⟨answer, q⟩ := result
  obtain rfl : answer = .ok template := hanswer
  obtain ⟨_, others, daemons, _, rfl, hsame, hkept⟩ := hq
  -- the merge-mined chain is asked after the primary one, and its daemon answers as before
  obtain ⟨node, rest, rfl⟩ : ∃ node rest, others = node :: rest := by
    refine List.exists_cons_of_ne_nil fun hnone => hothers ?_
    rw [hnone] at hsame
    exact List.map_eq_nil_iff.1 hsame.symm
  obtain ⟨v', hreply', hdecode'⟩ := haux daemons.calls
    ⟨node.cluster.activeNode, "createauxblock", .arr [.str node.rewardAddress]⟩ rfl
  rw [← hkept] at hreply'
  have hread' : ((node.cluster.activeNode.createAuxBlock node.rewardAddress).run daemons).1 = .ok aux :=
    Node.run_read_of_reply hreply' hdecode'
  have hcall : node.cluster.call (fun n => n.createAuxBlock node.rewardAddress) daemons = _ :=
    Cluster.call_of_first hread'
  simp only [askAux, hcall]

end Pool

namespace Traffic

variable {σ : Type} [Store σ] {t : Traffic σ} {e : Event} {header hash : Bytes}

/-! ### Answers -/

/-- A submission is answered with the code for duplicates. -/
def CallsDuplicate (t : Traffic σ) (e : Event) : Prop :=
  ∃ place now text c id params refusal, e = .line place now text ∧ t.connection? place = some c ∧
    request? text = some (id, "mining.submit", params) ∧
    (t.pool.submit c.ip c.stage id params).1 = .refuse id refusal ∧ refusal.code = 22

private theorem exists_line (h : t.handedIn? e = some header) :
    ∃ place now text c id params session submit work block,
    e = .line place now text ∧ t.connection? place = some c ∧ request? text = some (id, "mining.submit", params) ∧
      t.pool.Rebuilds c.stage params session submit work block header := by
  unfold handedIn? at h
  split at h
  · next place now text =>
    split at h
    · next c id method params hc hrequest =>
      split at h
      · next hmethod =>
        subst hmethod
        obtain ⟨session, submit, work, block, hrebuilds⟩ := Pool.exists_rebuilds h
        exact ⟨place, now, text, c, id, params, session, submit, work, block, rfl, hc, hrequest, hrebuilds⟩
      · cases h
    · cases h
  · cases h

private theorem code_of_refuse {id : Id} {refusal refusal' : Refusal}
    (h : Reaction.refuse id refusal' = Reaction.refuse id refusal) : refusal' = refusal := by
  injection h with hmessages
  injection hmessages with hmessage
  injection hmessage with _ _ hrefusal
  exact Option.some.inj hrefusal

/-- Whether a submission is called a duplicate is decided by what the pool remembers. -/
theorem callsDuplicate_iff_isDuplicate : t.CallsDuplicate e ↔
    ∃ header, t.handedIn? e = some header ∧ (t.pool.jobs.isDuplicate (sha256d header)).1 = true := by
  constructor
  · rintro ⟨place, now, text, c, id, params, refusal, rfl, hc, hrequest, hrefused, hcode⟩
    have hsubmitted := t.pool.submit_submitted c.ip c.stage id params
    rw [handedIn?_line hc hrequest, if_pos rfl]
    generalize t.pool.submit c.ip c.stage id params = result at hsubmitted hrefused
    -- no other refusal has this code
    cases hsubmitted with
    | turnedAway _ hother =>
      rw [code_of_refuse hrefused] at hother
      exact absurd hcode hother
    | duplicate hrebuilds hseen => exact ⟨_, hrebuilds.handedIn?, hseen⟩
    | refused _ _ _ hother =>
      rw [code_of_refuse hrefused] at hother
      exact absurd hcode hother
    | counted => exact absurd hrefused (Reaction.refuse_ne_answer _ _ _).symm
  · rintro ⟨header, hhanded, hseen⟩
    obtain ⟨place, now, text, c, id, params, _, _, _, _, rfl, hc, hrequest, hrebuilds⟩ := exists_line hhanded
    have hsubmit : t.pool.submit c.ip c.stage id params = _ := hrebuilds.submit_of_duplicate hseen
    exact ⟨place, now, text, c, id, params, _, rfl, hc, hrequest, congrArg Prod.fst hsubmit, rfl⟩

/-! ### What was handed in since the last clean start -/

theorem handedBy_append (t : Traffic σ) (es es' : List Event) :
    t.handedBy (es ++ es') = t.handedBy es ++ (t.run es).handedBy es' := by
  induction es generalizing t with
  | nil => rfl
  | cons e es ih =>
    rw [List.cons_append, handedBy, handedBy, run_cons, ih, List.append_assoc]

/-- What was handed in was handed in at some event. -/
private theorem exists_event_of_handedBy {es : List Event} {older newer : List Bytes}
    (h : t.handedBy es = older ++ header :: newer) : ∃ front e back, es = front ++ e :: back ∧
      (t.run front).handedIn? e = some header ∧ ((t.run front).step e).handedBy back = newer := by
  induction es generalizing t older with
  | nil => simp [handedBy] at h
  | cons e es ih =>
    rw [handedBy] at h
    rcases hhanded : t.handedIn? e with _ | first
    · rw [hhanded] at h
      obtain ⟨front, e', back, rfl, hevent, hnewer⟩ := ih h
      exact ⟨e :: front, e', back, rfl, hevent, hnewer⟩
    · rw [hhanded] at h
      rcases older with _ | ⟨other, older⟩
      · obtain ⟨rfl, hnewer⟩ := List.cons.inj h
        exact ⟨[], e, es, rfl, hhanded, hnewer⟩
      · obtain ⟨-, hrest⟩ := List.cons.inj h
        obtain ⟨front, e', back, rfl, hevent, hnewer⟩ := ih hrest
        exact ⟨e :: front, e', back, rfl, hevent, hnewer⟩

/-- No clean start is made at some events. -/
def Continues (t : Traffic σ) (es : List Event) : Prop :=
  ∀ front e back, es = front ++ e :: back → ¬ (t.run front).Renews e

private theorem Continues.behind {front back : List Event} (h : t.Continues (front ++ e :: back)) :
    ((t.run front).step e).Continues back := by
  intro front' e' back' hback
  have hrun : t.run (front ++ e :: front') = ((t.run front).step e).run front' := run_append _ _ _
  rw [← hrun]
  exact h (front ++ e :: front') e' back' (by rw [hback]; simp)

private theorem Continues.concat {es : List Event} (h : t.Continues es) (hlast : ¬ (t.run es).Renews e) :
    t.Continues (es ++ [e]) := by
  intro front e' back hes
  rcases List.eq_nil_or_concat back with rfl | ⟨back, last, rfl⟩
  · obtain ⟨rfl, hsame⟩ := List.append_inj' hes rfl
    cases hsame
    exact hlast
  · rw [List.concat_eq_append, ← List.cons_append, ← List.append_assoc] at hes
    obtain ⟨rfl, -⟩ := List.append_inj' hes rfl
    exact h front e' back rfl

private theorem jobs_of_refresh {clean : Bool} {work : Work} {q : Pool σ} (h : t.pool.refresh clean = (.ok work, q)) :
    (t.step (.refresh clean)).pool.jobs = (t.pool.jobs.takeId.2.publish work clean).2 := by
  have hrefreshed := t.pool.refresh_refreshed clean
  show (t.pool.refresh clean).2.jobs = _
  rw [h] at hrefreshed ⊢
  cases hrefreshed with
  | @published _ _ _ _ q hq _ =>
    show (q.jobs.takeId.2.publish work clean).2 = _
    rw [hq.jobs]

private theorem recalls_nil_of_renews (hrecalls : ∃ hs, t.Recalls hs) (h : t.Renews e) : (t.step e).Recalls [] := by
  obtain ⟨hs, hrecalls⟩ := hrecalls
  obtain ⟨clean, work, q, rfl, hrefresh, hclean⟩ := h
  have hends : t.pool.jobs.ends work clean = true := by
    rcases hclean with rfl | ⟨current, hcurrent, hheight⟩
    · rfl
    · simp [Jobs.ends, hcurrent, hheight]
  obtain ⟨hcapacity, hremembers⟩ := publish_recalls hrecalls work clean
  rw [if_pos hends] at hremembers
  rw [← jobs_of_refresh hrefresh] at hcapacity hremembers
  exact ⟨hcapacity, hremembers⟩

/-- Without a current job nothing can be handed in, and a pool that has nothing to remember goes on so. -/
private theorem recalls_nil_of_current (hrecalls : t.Recalls []) (hnone : t.handedIn? e = none) :
    (t.step e).Recalls [] := by
  rcases (t.step_stepped e).jobs with ⟨clean, work, q, -, -, hjobs⟩ | ⟨-, -, hjobs⟩ | hjobs
  · obtain ⟨hcapacity, hremembers⟩ := publish_recalls hrecalls work clean
    rw [ite_self] at hremembers
    exact ⟨by rw [hjobs]; exact hcapacity, by rw [hjobs]; exact hremembers⟩
  · exact ⟨by rw [hjobs]; exact hrecalls.capacity, by rw [hjobs]; exact hrecalls.remembers⟩
  · rw [hnone] at hjobs
    exact ⟨by rw [hjobs]; exact hrecalls.capacity, by rw [hjobs]; exact hrecalls.remembers⟩

/-- A pool remembers the recent part of what was handed in since the last clean start. -/
private theorem recalls_since {p : Pool σ} (hfresh : p.IsFresh) (es : List Event) : ∃ front back, es = front ++ back ∧
    ((ofPool p).run front).Continues back ∧
    ((ofPool p).run es).Recalls ((((ofPool p).run front).handedBy back).reverse.map sha256d) ∧
    (((ofPool p).run es).pool.jobs.current = none → ((ofPool p).run front).handedBy back = []) := by
  induction es using List.reverseRecOn with
  | nil => exact ⟨[], [], rfl, by simp [Continues], recalls_ofPool hfresh, fun _ => rfl⟩
  | append_singleton es e ih =>
    obtain ⟨front, back, hes, hcontinues, hrecalls, hnothing⟩ := ih
    have hrun := (ofPool p).run_concat es e
    by_cases hrenews : ((ofPool p).run es).Renews e
    · refine ⟨es ++ [e], [], by simp, by simp [Continues], ?_, fun _ => rfl⟩
      rw [hrun]
      exact recalls_nil_of_renews ⟨_, hrecalls⟩ hrenews
    have hback : ((ofPool p).run front).run back = (ofPool p).run es := by
      rw [hes]
      exact (run_append _ _ _).symm
    have hhanded : ((ofPool p).run front).handedBy (back ++ [e]) =
        ((ofPool p).run front).handedBy back ++ (((ofPool p).run es).handedIn? e).toList := by
      rw [handedBy_append, hback, handedBy, handedBy, List.append_nil]
    refine ⟨front, back ++ [e], by rw [hes, List.append_assoc], hcontinues.concat (by rwa [hback]), ?_⟩
    rw [hrun, hhanded]
    by_cases hcurrent : ((ofPool p).run es).pool.jobs.current.isSome
    · obtain ⟨hstep, hcurrent'⟩ := hrecalls.step hcurrent hrenews
      refine ⟨?_, fun hnone => ?_⟩
      · rcases hlast : ((ofPool p).run es).handedIn? e with _ | header
        · rw [hlast] at hstep
          simpa using hstep
        · rw [hlast] at hstep
          simpa using hstep
      · rw [hnone] at hcurrent'
        cases hcurrent'
    · -- no job is valid before the first one is published
      have hvalid := mt (remembering_run hfresh es).current hcurrent
      have hnone : ((ofPool p).run es).handedIn? e = none := by
        rcases hlast : ((ofPool p).run es).handedIn? e with _ | header
        · rfl
        · exact absurd (valid_of_handedIn? hlast) hvalid
      have hempty := hnothing (Option.not_isSome_iff_eq_none.1 hcurrent)
      rw [hempty] at hrecalls ⊢
      rw [hnone]
      exact ⟨recalls_nil_of_current hrecalls hnone, fun _ => rfl⟩

/-! ### Duplicates -/

/-- A hash is that of a header that was handed in at one of some events, with no clean start and fewer other
hashes after it than a pool remembers. -/
def HandedInLately (t : Traffic σ) (es : List Event) (hash : Bytes) : Prop :=
  ∃ front e back header, es = front ++ e :: back ∧ (t.run front).handedIn? e = some header ∧ sha256d header = hash ∧
    ((t.run front).step e).Continues back ∧
    (((((t.run front).step e).handedBy back).map sha256d).toFinset.erase hash).card < Jobs.seenCapacity

/-- What was handed in last was handed in lately. -/
private theorem handedInLately_concat {es : List Event} (h : (t.run es).handedIn? e = some header) :
    t.HandedInLately (es ++ [e]) (sha256d header) := by
  refine ⟨es, e, [], header, rfl, h, rfl, by simp [Continues], ?_⟩
  simp only [handedBy, List.map_nil, List.toFinset_nil, Finset.erase_empty, Finset.card_empty]
  decide

private theorem isDuplicate_iff {p : Pool σ} (hfresh : p.IsFresh) (es : List Event) (header : Bytes) :
    (((ofPool p).run es).pool.jobs.isDuplicate (sha256d header)).1 = true ↔
      (ofPool p).HandedInLately es (sha256d header) := by
  constructor
  · intro hseen
    obtain ⟨start, es, rfl, hcontinues, hrecalls, -⟩ := recalls_since hfresh es
    rw [(isDuplicate_recalls hrecalls _).1, decide_eq_true_iff, Recency.mem_take_recent_iff_exists] at hseen
    obtain ⟨newer, older, hsplit, hfew⟩ := hseen
    obtain ⟨later, rest, hreverse, rfl, hrest⟩ := List.map_eq_append_iff.1 hsplit
    obtain ⟨earlier, sooner, rfl, hhash, -⟩ := List.map_eq_cons_iff.1 hrest
    have hhanded : ((ofPool p).run start).handedBy es = sooner.reverse ++ earlier :: later.reverse := by
      rw [← List.reverse_reverse (((ofPool p).run start).handedBy es), hreverse]
      simp
    obtain ⟨front, first, back, rfl, hfirst, hlater⟩ := exists_event_of_handedBy hhanded
    have hrun : (ofPool p).run (start ++ front) = ((ofPool p).run start).run front := run_append _ _ _
    refine ⟨start ++ front, first, back, earlier, by simp, by rw [hrun]; exact hfirst, hhash, ?_, ?_⟩
    · rw [hrun]
      exact hcontinues.behind
    · rw [hrun, hlater, List.map_reverse, List.toFinset_reverse]
      exact hfew
  · rintro ⟨front, first, back, earlier, rfl, hfirst, hhash, hcontinues, hfew⟩
    obtain ⟨hs, hrecalls⟩ := recalls_behind hfresh front back hfirst hcontinues
    have hrun : (ofPool p).run (front ++ first :: back) = (((ofPool p).run front).step first).run back :=
      List.foldl_append
    rw [hrun, (isDuplicate_recalls hrecalls _).1, decide_eq_true_iff, Recency.mem_take_recent_iff_exists, hhash]
    refine ⟨_, hs, rfl, ?_⟩
    rwa [List.map_reverse, List.toFinset_reverse]

/-- In every run, a submission is called a duplicate exactly if its header has the hash of one that was handed
in before, with no clean start and fewer other hashes after it than the pool remembers. -/
theorem callsDuplicate_iff {p : Pool σ} (hfresh : p.IsFresh) (before : List Event) (e : Event) :
    ((ofPool p).run before).CallsDuplicate e ↔ ∃ header, ((ofPool p).run before).handedIn? e = some header ∧
      (ofPool p).HandedInLately before (sha256d header) := by
  rw [callsDuplicate_iff_isDuplicate]
  constructor
  · rintro ⟨header, hhanded, hseen⟩
    exact ⟨header, hhanded, (isDuplicate_iff hfresh before header).1 hseen⟩
  · rintro ⟨header, hhanded, hlately⟩
    exact ⟨header, hhanded, (isDuplicate_iff hfresh before header).2 hlately⟩

/-- The miner of the sample can hand in the same line twice. -/
private theorem exists_repeat_sample : ∃ header,
    ((ofPool samplePool).run sampleStart).handedIn? (.line 0 0 (sampleLine "00000000")) = some header ∧
      (((ofPool samplePool).run sampleStart).step (.line 0 0 (sampleLine "00000000"))).handedIn?
        (.line 0 0 (sampleLine "00000000")) = some header := by
  obtain ⟨work, notify, hwork⟩ := exists_sampleWork
  obtain ⟨block, hmade⟩ := Block.exists_sampleBlock (Work.template_eq (Work.build_eq_ok.1 hwork))
    ([7, 7, 7, 7] ++ [0, 0, 0, 0]) ⟨0⟩ ⟨0x6553f101⟩
  obtain ⟨header, hheader⟩ := Block.exists_header hmade
  obtain ⟨hstart, -, hjob, hnew⟩ := isSample_start hwork
  generalize (ofPool samplePool).run sampleStart = t at *
  obtain ⟨hsubmitted, hfirst, -, hjobs⟩ := hstart.submit hwork hmade hheader reads_zero hjob (hnew _)
  obtain ⟨c, params, hc, -, hrequest, hrebuilds⟩ :=
    hsubmitted.rebuilds hmade hheader reads_zero (by rw [hjobs, Jobs.get?_isDuplicate, hjob])
  refine ⟨header, hfirst, ?_⟩
  rw [handedIn?_line hc hrequest, if_pos rfl, hrebuilds.handedIn?]

theorem callsDuplicate_iff_sample : samplePool.IsFresh ∧ ∃ header,
    (ofPool samplePool).HandedInLately (sampleStart ++ [.line 0 0 (sampleLine "00000000")]) (sha256d header) ∧
    ((ofPool samplePool).run (sampleStart ++ [.line 0 0 (sampleLine "00000000")])).CallsDuplicate
      (.line 0 0 (sampleLine "00000000")) := by
  obtain ⟨header, hfirst, hagain⟩ := exists_repeat_sample
  have hlately := handedInLately_concat hfirst
  rw [← run_concat] at hagain
  exact ⟨samplePool_isFresh, header, hlately,
    (callsDuplicate_iff samplePool_isFresh _ _).2 ⟨header, hagain, hlately⟩⟩

/-! ### Work that nobody got a share for -/

/-- What waits to be stored goes on waiting until it is flushed. -/
theorem waiting_prefix_run {es : List Event} (hflush : Event.flush ∉ es) :
    t.pool.shares.waiting <+: (t.run es).pool.shares.waiting := by
  induction es generalizing t with
  | nil => exact List.prefix_rfl
  | cons e es ih =>
    have hrest := @ih (t.step e) fun hmem => hflush (List.mem_cons_of_mem e hmem)
    rcases (t.step_stepped e).waiting with hsame | ⟨rfl, -⟩ | ⟨_, _, _, share, hmore, -⟩
    · rwa [hsame] at hrest
    · exact absurd List.mem_cons_self hflush
    · rw [hmore] at hrest
      exact (List.prefix_append _ _).trans hrest

/-- The merge-mined block of the sample with a target that cannot be read, so that no work on it can be judged. -/
private def unjudgedAux : AuxBlock := { sampleAux with targetText := "zz" }

/-- A miner logs in with an address for each chain. -/
private def unjudgedLogin : List Event :=
  [.connect (.four [10, 0, 0, 1]) 600,
    .line 0 0 "\x7b\"id\":\"a\",\"method\":\"mining.subscribe\",\"params\":[]\x7d",
    .line 0 0 ("\x7b\"id\":\"b\",\"method\":\"mining.authorize\"," ++
      "\"params\":[\"D1111111111111111111111111111-L1111111111111111111111111111.rig\"]\x7d")]

private def unjudgedSession : Session :=
  ⟨⟨0, ⟨[7, 7, 7, 7]⟩, ""⟩, ⟨["D1111111111111111111111111111", "L1111111111111111111111111111"], "rig"⟩⟩

private theorem unjudged_login :
    ((ofPool (sampleMergedPool unjudgedAux)).run unjudgedLogin).pool.jobs.nextId = ⟨0⟩ ∧
      ((ofPool (sampleMergedPool unjudgedAux)).run unjudgedLogin).pool.shares.waiting = [] ∧
      ∃ c, ((ofPool (sampleMergedPool unjudgedAux)).run unjudgedLogin).connection? 0 = some c ∧
        c.stage = .authorized unjudgedSession ∧ c.room = none := by
  have hlogin : (fun t : Traffic Ledger => (t.pool.jobs.nextId, t.pool.shares.waiting.isEmpty,
      (t.connection? 0).map fun c => (c.stage, c.room))) ((ofPool (sampleMergedPool unjudgedAux)).run unjudgedLogin) =
      (⟨0⟩, true, some (.authorized unjudgedSession, none)) := by
    decide +kernel
  obtain ⟨hid, hempty, hmap⟩ := by simpa only [Prod.mk.injEq] using hlogin
  obtain ⟨c, hc, hstage⟩ := Option.map_eq_some_iff.1 hmap
  exact ⟨hid, List.isEmpty_iff.1 hempty, c, hc, congrArg Prod.fst hstage, congrArg Prod.snd hstage⟩

private theorem exists_unjudged_refresh {t : Traffic Ledger}
    (hground : t.pool.ground = (sampleMergedPool unjudgedAux).ground) (hid : t.pool.jobs.nextId = ⟨0⟩) :
    ∃ work, work.template = sampleTemplate ∧ work.aux = some unjudgedAux ∧
      (t.step (.refresh true)).pool.jobs.get? ⟨0⟩ = some work ∧
      (∀ key, ((t.step (.refresh true)).pool.jobs.isDuplicate key).1 = false) ∧
      (t.step (.refresh true)).pool.shares.waiting = t.pool.shares.waiting := by
  obtain ⟨work, notify, hwork, htemplate, haux, hjobId⟩ := @exists_sampleAuxWork unjudgedAux rfl ⟨0⟩
  have hreply : t.pool.daemons.reply = (sampleMergedPool unjudgedAux).daemons.reply := congrArg Ground.reply hground
  have hoffers : t.pool.Offers sampleTemplate := by
    intro calls call hmethod
    refine ⟨sampleTemplate.toJson, ?_, by rfl⟩
    rw [hreply]
    show (if call.method = "getblocktemplate" then _ else _) = _
    rw [if_pos hmethod]
  have hauxOffers : ∀ calls call, call.method = "createauxblock" →
      ∃ v, t.pool.daemons.reply calls call = .ok v ∧ AuxBlock.ofJson? v = some unjudgedAux := by
    intro calls call hmethod
    refine ⟨unjudgedAux.toJson, ?_, by rfl⟩
    rw [hreply]
    show (if call.method = "getblocktemplate" then _ else if call.method = "createauxblock" then _ else _) = _
    rw [hmethod]
    rfl
  have hothers : t.pool.others ≠ [] := by
    intro hnone
    have hsame : t.pool.others.map ChainNode.identity = _ := congrArg Ground.others hground
    rw [hnone] at hsame
    cases hsame
  have hbuilt : t.pool.buildWork sampleTemplate (some unjudgedAux) t.pool.jobs.nextId = .ok (work, notify) := by
    rw [hid, Pool.buildWork_of_ground hground]
    exact hwork
  obtain ⟨q, hrefresh, hjobs, hshares⟩ :=
    Pool.refresh_of_fetched (Pool.fetchTemplates_of_offers_aux hoffers hothers hauxOffers) hbuilt true
  have hstep : (t.step (.refresh true)).pool = q := congrArg Prod.snd hrefresh
  rw [hstep, hjobs, hshares]
  refine ⟨work, htemplate, haux, ?_, fun _ => rfl, rfl⟩
  rw [← hjobId]
  exact List.lookup_cons_self

/-- The first submission fails inside the pool, and the second one is for the same header. -/
private theorem exists_unjudged_repeat : ∃ header,
    ((ofPool (sampleMergedPool unjudgedAux)).run (unjudgedLogin ++ [.refresh true])).handedIn?
        (.line 0 0 (sampleLine "00000000")) = some header ∧
      (((ofPool (sampleMergedPool unjudgedAux)).run (unjudgedLogin ++ [.refresh true])).step
        (.line 0 0 (sampleLine "00000000"))).handedIn? (.line 0 0 (sampleLine "00000000")) = some header ∧
      (((ofPool (sampleMergedPool unjudgedAux)).run (unjudgedLogin ++ [.refresh true])).step
        (.line 0 0 (sampleLine "00000000"))).pool.shares.waiting = [] := by
  obtain ⟨hid, hnothing, c, hc, hstage, hroom⟩ := unjudged_login
  have hground := ground_run (ofPool (sampleMergedPool unjudgedAux)) unjudgedLogin
  rw [run_concat]
  generalize (ofPool (sampleMergedPool unjudgedAux)).run unjudgedLogin = t at *
  obtain ⟨work, htemplate, haux, hjob, hnew, hwaiting⟩ := exists_unjudged_refresh hground hid
  have hsize : (t.step (.refresh true)).pool.extranonces.minerSize = 4 :=
    congrArg Ground.minerSize ((t.step_stepped (.refresh true)).ground.trans hground)
  have hc : (t.step (.refresh true)).connection? 0 = some c := hc
  generalize t.step (.refresh true) = t at *
  obtain ⟨block, hmade⟩ := Block.exists_sampleBlock htemplate ([7, 7, 7, 7] ++ [0, 0, 0, 0]) ⟨0⟩ ⟨0x6553f101⟩
  obtain ⟨header, hheader⟩ := Block.exists_header hmade
  obtain ⟨params, hrequest, hread⟩ := reads_zero.exists_params
  have hrebuilds : t.pool.Rebuilds c.stage params unjudgedSession (sampleSubmit ⟨0⟩) work block header :=
    ⟨hstage, hread, hjob, by rw [hsize]; rfl, hmade, hheader⟩
  -- the target of the merge-mined block stops the check when the header was noted already
  have hsubmit : t.pool.submit c.ip c.stage (.text "c") params =
      (Pool.internalError (.text "c"), t.pool.noting header) := by
    rw [hrebuilds.submit_of_new (hnew _) (Block.sum_eq_ok.2 ⟨header, hheader, rfl, rfl⟩)]
    rcases htarget : work.auxTarget with e | target
    · rfl
    · obtain ⟨count, h0, -, hdigits, hlen⟩ := Work.exists_auxTarget_iff.1 ⟨target, htarget⟩ _ haux
      exact absurd hdigits (by decide)
  obtain ⟨hpool, c', hc', hstage', -⟩ := @step_of_answer _ _ t 0 0 _ _ _ _ _ _ hc hroom hrequest hsubmit
  have hagain : (t.step (.line 0 0 (sampleLine "00000000"))).pool.Rebuilds c'.stage params unjudgedSession
      (sampleSubmit ⟨0⟩) work block header := by
    rw [hpool, hstage']
    exact ⟨hstage, hread, (Jobs.get?_isDuplicate _ _ _).trans hjob, hrebuilds.size, hmade, hheader⟩
  refine ⟨header, ?_, ?_, ?_⟩
  · rw [handedIn?_line hc hrequest, if_pos rfl, hrebuilds.handedIn?]
  · rw [handedIn?_line hc' hrequest, if_pos rfl, hagain.handedIn?]
  · rw [hpool]
    exact hwaiting.trans hnothing

/-- A submission is called a duplicate though nobody ever got a share for its header: the first one failed
inside the pool, and the second one is not answered like it. -/
theorem not_credits_of_callsDuplicate :
    ¬ ∀ (σ : Type) [Store σ] (p : Pool σ) (before : List Event) (e : Event) (header : Bytes), p.IsFresh →
      ((ofPool p).run before).CallsDuplicate e → ((ofPool p).run before).handedIn? e = some header →
      ∃ front first back, before = front ++ first :: back ∧ ((ofPool p).run front).Credits first header := by
  intro hcredited
  have hfresh : (sampleMergedPool unjudgedAux).IsFresh := ⟨rfl, rfl, rfl, rfl, rfl, rfl⟩
  obtain ⟨header, hfirst, hagain, hnothing⟩ := exists_unjudged_repeat
  have hlately := handedInLately_concat hfirst
  rw [← run_concat] at hagain hnothing
  have hcalled := callsDuplicate_iff_isDuplicate.2 ⟨header, hagain, (isDuplicate_iff hfresh _ _).2 hlately⟩
  obtain ⟨front, first, back, hsplit, -, share, hshare⟩ := hcredited Ledger _ _ _ header hfresh hcalled hagain
  -- a share that was put among the waiting ones would still be there
  have hflush : Event.flush ∉ front ++ first :: back := by
    rw [← hsplit]
    simp [unjudgedLogin]
  have hkept := @waiting_prefix_run _ _ (((ofPool (sampleMergedPool unjudgedAux)).run front).step first) back
    fun hmem => hflush (List.mem_append_right _ (List.mem_cons_of_mem _ hmem))
  rw [hsplit, run_append, run_cons] at hnothing
  rw [hshare, hnothing, List.prefix_nil] at hkept
  simp at hkept

end Traffic

end MergedMining
