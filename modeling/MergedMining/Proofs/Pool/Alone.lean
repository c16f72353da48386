import MergedMining.Proofs.Pool.Candidate
import MergedMining.Proofs.Pool.Check

/-!
# The primary chain alone

A merge-mined chain that offers no block leaves the primary chain mined alone.  One that offers a block may stop
it in two places: the block does not fit behind the signature, and no job is published, or its target cannot be
read, and no work on the job is handed in (`refresh_submit_iff_alone`).
-/

namespace MergedMining

open Daemons (Exchange)
open Stratum (Id)

/-- Work that solves a block of the primary chain does so whatever the other targets are. -/
theorem ShareStatus.solvesPrimary_ofSum {sum primary : Target} (h : sum ≤ primary) (aux : Option Target)
    (pool : Target) :
    (ofSum sum primary aux pool).solvesPrimary = true := by
  simp only [ofSum, h, decide_true]
  rcases aux.any fun target => decide (sum ≤ target) with _ | _ <;> rfl

namespace Pool

variable {σ : Type} {p : Pool σ}

/-- The pool without its merge-mined chain. -/
def alone (p : Pool σ) : Pool σ := { p with others := [] }

/-! ### Refreshes -/

theorem fetchTemplates_alone (p : Pool σ) :
    p.alone.fetchTemplates.1 = p.fetchTemplates.1.map fun fetched => (fetched.1, none) := by
  have hask : p.alone.askPrimary Node.getBlockTemplate =
      ((p.askPrimary Node.getBlockTemplate).1, (p.askPrimary Node.getBlockTemplate).2.alone) := rfl
  unfold fetchTemplates
  rw [hask]
  rcases p.askPrimary Node.getBlockTemplate with ⟨e | template, q⟩
  · rfl
  · have hnone : q.alone.askAux (fun aux node => node.createAuxBlock aux.rewardAddress) = (none, q.alone) := rfl
    dsimp only
    rw [hnone]
    rcases q.askAux fun aux node => node.createAuxBlock aux.rewardAddress with ⟨_ | _ | aux, r⟩ <;> rfl

/-- A job is published exactly if templates are fetched from which it can be built. -/
theorem exists_refresh_iff {clean : Bool} : (∃ work q, p.refresh clean = (.ok work, q)) ↔
    ∃ template aux result, p.fetchTemplates.1 = .ok (template, aux) ∧
      p.buildWork template aux p.jobs.nextId = .ok result := by
  have hq := fetchTemplates_outward p
  unfold refresh
  rcases hfetch : p.fetchTemplates with ⟨e | ⟨template, aux⟩, q⟩
  · constructor
    · rintro ⟨work, q', h⟩
      cases h
    · rintro ⟨_, _, _, h, -⟩
      cases h
  · rw [hfetch] at hq
    -- fetching touches neither the settings nor the id of the next job
    have hbuild : q.takingId.buildWork template aux q.jobs.takeId.1 = p.buildWork template aux p.jobs.nextId := by
      show q.buildWork template aux q.jobs.nextId = _
      rw [hq.buildWork, hq.jobs]
    rw [takingId] at hbuild
    dsimp only
    rw [hbuild]
    rcases hbuild' : p.buildWork template aux p.jobs.nextId with e | result
    · constructor
      · rintro ⟨work, q', h⟩
        cases h
      · rintro ⟨_, _, _, hfetched, hbuilt⟩
        cases hfetched
        rw [hbuild'] at hbuilt
        cases hbuilt
    · exact ⟨fun _ => ⟨template, aux, result, rfl, hbuild'⟩, fun _ => ⟨_, _, rfl⟩⟩

/-- What stops a refresh that the primary chain alone would not stop is a merge-mined block that does not fit
behind the signature. -/
theorem exists_refresh_iff_alone {clean : Bool} : (∃ work q, p.refresh clean = (.ok work, q)) ↔
    (∃ work q, p.alone.refresh clean = (.ok work, q)) ∧
      ∀ template aux, p.fetchTemplates.1 = .ok (template, some aux) → aux.FitsBehind p.settings.signature := by
  rw [exists_refresh_iff, exists_refresh_iff, fetchTemplates_alone]
  constructor
  · rintro ⟨template, aux, result, hfetched, hbuilt⟩
    rw [hfetched]
    rcases aux with _ | aux
    · exact ⟨⟨template, none, result, rfl, hbuilt⟩, fun _ _ h => by cases h⟩
    · obtain ⟨⟨result', hbuilt'⟩, hfits⟩ := Work.exists_build_some_iff.1 ⟨result, hbuilt⟩
      refine ⟨⟨template, none, result', rfl, hbuilt'⟩, fun _ _ h => ?_⟩
      cases h
      exact hfits
  · rintro ⟨⟨template, none?, result, hfetched, hbuilt⟩, hfits⟩
    obtain ⟨⟨template', aux⟩, hfetched', heq⟩ := Outcome.map_eq_ok.1 hfetched
    cases heq
    rcases aux with _ | aux
    · exact ⟨template', none, result, hfetched', hbuilt⟩
    · obtain ⟨result', hbuilt'⟩ := Work.exists_build_some_iff.2 ⟨⟨result, hbuilt⟩, hfits template' aux hfetched'⟩
      exact ⟨template', some aux, result', hfetched', hbuilt'⟩

/-! ### Submissions -/

variable [Store σ] {stage : Stage} {params : Json} {session : Session} {submit : Stratum.Submit} {work : Work}
  {block summed : Block} {header : Bytes} {sum : Target}

private theorem exists_submitBlock_of_candidate {made : Block} (hsum : made.sum = .ok (sum, block))
    {status : ShareStatus} (hsolves : status.solvesPrimary = true) (p : Pool σ) (session : Session) :
    ∃ text new answer, block.submission = .ok text ∧
      p.daemons.After new (p.submitCandidate block status session).2.daemons ∧
      ⟨⟨p.primary.cluster.activeNode, "submitblock", .arr [.str text]⟩, answer⟩ ∈ new := by
  obtain ⟨header, text, proof, hheader, htext, hproof⟩ := parts_of_sum hsum
  obtain ⟨q, older, newer, _, _, haux, hprimary, -, -, hmem⟩ :=
    submitCandidate_settles hheader htext hproof p status session
  exact ⟨text, newer ++ older, _, htext, haux.after.trans hprimary.after, List.mem_append_left _ (hmem hsolves)⟩

/-- Work that solves a block of the primary chain is handed in to its active node exactly if the merge-mined
block of the job, when there is one, has a target that can be read. -/
theorem exists_submitBlock_iff (h : p.Rebuilds stage params session submit work block header)
    (hnew : (p.jobs.isDuplicate (sha256d header)).1 = false) (hsum : block.sum = .ok (sum, summed))
    (hle : sum ≤ work.template.target) (ip : Ip) (id : Id) :
    (∃ text new answer, summed.submission = .ok text ∧ p.daemons.After new (p.submit ip stage id params).2.daemons ∧
      ⟨⟨p.primary.cluster.activeNode, "submitblock", .arr [.str text]⟩, answer⟩ ∈ new) ↔
      ∀ aux ∈ work.aux, aux.HasTarget := by
  rw [h.submit_of_new hnew hsum, ← Work.exists_auxTarget_iff]
  rcases htarget : work.auxTarget with e | target
  · constructor
    · -- a check that went wrong asked nobody, so there is no call that could be the one
      rintro ⟨text, new, answer, -, hafter, hmem⟩
      have hnone : (p.noting header).daemons = p.daemons := rfl
      rw [hnone] at hafter
      rw [← hafter.unique (.refl _)] at hmem
      cases hmem
    · rintro ⟨target, h⟩
      cases h
  · refine ⟨fun _ => ⟨target, rfl⟩, fun _ => ?_⟩
    have hsolves := ShareStatus.solvesPrimary_ofSum hle target p.target
    have hcandidate (status : ShareStatus) (h : status.solvesPrimary = true) :=
      exists_submitBlock_of_candidate hsum h ((p.noting header).recordShare session ip work sum) session
    dsimp only
    generalize ShareStatus.ofSum sum work.template.target target p.target = status at hsolves ⊢
    rcases status with _ | _ | _ | _ | _
    · cases hsolves
    · cases hsolves
    · exact hcandidate .primary rfl
    · cases hsolves
    · exact hcandidate .dual rfl

/-- What a merge-mined chain can stop.  A refresh publishes a job whenever it would without that chain, unless
the block that was offered does not fit behind the signature; and every first submission whose work is at or
below the target of the primary chain is handed in to it, unless the target of the merge-mined block cannot be
read. -/
theorem refresh_submit_iff_alone :
    (∀ (p : Pool σ) (clean : Bool), (∃ work q, p.refresh clean = (.ok work, q)) ↔
      (∃ work q, p.alone.refresh clean = (.ok work, q)) ∧
        ∀ template aux, p.fetchTemplates.1 = .ok (template, some aux) → aux.FitsBehind p.settings.signature) ∧
    ∀ {p : Pool σ} {stage : Stage} {params : Json} {session : Session} {submit : Stratum.Submit} {work : Work}
      {block summed : Block} {header : Bytes} {sum : Target},
      p.Rebuilds stage params session submit work block header →
      (p.jobs.isDuplicate (sha256d header)).1 = false → block.sum = .ok (sum, summed) → sum ≤ work.template.target →
      ∀ (ip : Ip) (id : Id),
        (∃ text new answer, summed.submission = .ok text ∧
          p.daemons.After new (p.submit ip stage id params).2.daemons ∧
          ⟨⟨p.primary.cluster.activeNode, "submitblock", .arr [.str text]⟩, answer⟩ ∈ new) ↔
          ∀ aux ∈ work.aux, aux.HasTarget :=
  ⟨fun _ _ => exists_refresh_iff_alone, fun h hnew hsum hle ip id => exists_submitBlock_iff h hnew hsum hle ip id⟩

/-- The submission of the sample, for a job that was just published. -/
private theorem exists_sampleRebuilds {p : Pool Ledger} (hsize : p.extranonces.minerSize = 4) {aux : AuxBlock}
    (h : aux.hash = sampleAux.hash) : ∃ work notify made summed header sum,
      Work.build (some sampleTemplate) (some aux) .dogecoin [0x2f] [0x51] 8 ⟨0⟩ = .ok (work, notify) ∧
      work.aux = some aux ∧ (p.publishing work true).Rebuilds (.authorized sampleSession) sampleParams sampleSession
        (sampleSubmit ⟨0⟩) work made header ∧
      made.sum = .ok (sum, summed) ∧ sum ≤ work.template.target := by
  obtain ⟨work, notify, hwork, htemplate, haux, hid⟩ := exists_sampleAuxWork h ⟨0⟩
  obtain ⟨made, hmade⟩ := Block.exists_sampleBlock htemplate
    (sampleSession.extranonce1.bytes ++ (sampleSubmit ⟨0⟩).extranonce2.bytes) (sampleSubmit ⟨0⟩).nonce
    (sampleSubmit ⟨0⟩).ntime
  obtain ⟨header, hheader⟩ := Block.exists_header hmade
  have hjob := p.get?_publishing work true
  rw [hid] at hjob
  have hsum := Block.sum_eq_ok.2 ⟨header, hheader, rfl, rfl⟩
  refine ⟨work, notify, made, _, header, _, hwork, haux, ⟨rfl, ofJson_sampleParams, hjob, ?_, hmade, hheader⟩,
    hsum, ?_⟩
  · exact hsize.symm
  · rw [htemplate]
    exact Target.le_max _

theorem refresh_submit_iff_alone_sample : ∃ work notify made summed header sum,
    Work.build (some sampleTemplate) (some sampleAux) .dogecoin [0x2f] [0x51] 8 ⟨0⟩ = .ok (work, notify) ∧
    ((sampleMergedPool sampleAux).publishing work true).Rebuilds
      (.authorized sampleSession) sampleParams sampleSession (sampleSubmit ⟨0⟩) work made header ∧
    (((sampleMergedPool sampleAux).publishing work true).jobs.isDuplicate (sha256d header)).1 = false ∧
    made.sum = .ok (sum, summed) ∧ sum ≤ work.template.target ∧
    ∃ text new answer, summed.submission = .ok text ∧
      ((sampleMergedPool sampleAux).publishing work true).daemons.After new
        (((sampleMergedPool sampleAux).publishing work true).submit (.four [10, 0, 0, 1]) (.authorized sampleSession)
          (.text "c") sampleParams).2.daemons ∧
      ⟨⟨⟨0, 0, "http://node"⟩, "submitblock", .arr [.str text]⟩, answer⟩ ∈ new := by
  obtain ⟨work, notify, made, summed, header, sum, hwork, haux, hrebuilds, hsum, hle⟩ :=
    @exists_sampleRebuilds (sampleMergedPool sampleAux) rfl sampleAux rfl
  have hnew : (((sampleMergedPool sampleAux).publishing work true).jobs.isDuplicate (sha256d header)).1 = false := rfl
  have htarget : ∀ aux ∈ work.aux, aux.HasTarget := by
    intro aux h
    rw [haux] at h
    cases h
    exact sampleAux_hasTarget
  have hcall := (refresh_submit_iff_alone.2 hrebuilds hnew hsum hle (.four [10, 0, 0, 1]) (.text "c")).2 htarget
  exact ⟨work, notify, made, summed, header, sum, hwork, hrebuilds, hnew, hsum, hle, hcall⟩

/-- A merge-mined block with a hash that is no byte string stops the jobs of the primary chain, and one with a
target that is no byte string stops its blocks: work at the target leads to no call. -/
theorem refresh_submit_stopped_sample :
    ((∃ work q, (sampleMergedPool { sampleAux with hash := "zz" }).alone.refresh true = (.ok work, q)) ∧
      ¬ ∃ work q, (sampleMergedPool { sampleAux with hash := "zz" }).refresh true = (.ok work, q)) ∧
    ∃ (aux : AuxBlock) (p : Pool Ledger) (work : Work) (notify : Stratum.Notify) (made summed : Block)
      (header : Bytes) (sum : Target), aux.targetText = "zz" ∧ p = (sampleMergedPool aux).publishing work true ∧
      Work.build (some sampleTemplate) (some aux) .dogecoin [0x2f] [0x51] 8 ⟨0⟩ = .ok (work, notify) ∧
      p.Rebuilds (.authorized sampleSession) sampleParams sampleSession (sampleSubmit ⟨0⟩) work made header ∧
      (p.jobs.isDuplicate (sha256d header)).1 = false ∧ made.sum = .ok (sum, summed) ∧ sum ≤ work.template.target ∧
      (p.submit (.four [10, 0, 0, 1]) (.authorized sampleSession) (.text "c") sampleParams).2.daemons =
        p.daemons := by
  constructor
  · have hfetched : (sampleMergedPool { sampleAux with hash := "zz" }).fetchTemplates.1 =
        .ok (sampleTemplate, some { sampleAux with hash := "zz" }) := rfl
    obtain ⟨work, notify, hwork⟩ := exists_sampleWork
    have hbuilt := Work.build_eq_ok.2 (Work.ofTemplate_withId ⟨0⟩ (Work.build_eq_ok.1 hwork))
    constructor
    · refine exists_refresh_iff.2 ⟨sampleTemplate, none, _, ?_, hbuilt⟩
      rw [fetchTemplates_alone, hfetched]
      rfl
    · intro h
      obtain ⟨count, ⟨hdigits, -⟩, -⟩ := (exists_refresh_iff_alone.1 h).2 _ _ hfetched
      exact absurd hdigits (by decide)
  · obtain ⟨work, notify, made, summed, header, sum, hwork, haux, hrebuilds, hsum, hle⟩ :=
      @exists_sampleRebuilds (sampleMergedPool { sampleAux with targetText := "zz" }) rfl
        { sampleAux with targetText := "zz" } rfl
    refine ⟨_, _, work, notify, made, summed, header, sum, rfl, rfl, hwork, hrebuilds, rfl, hsum, hle, ?_⟩
    rw [hrebuilds.submit_of_new rfl hsum]
    rcases htarget : work.auxTarget with e | target
    · rfl
    · obtain ⟨count, h0, -, hdigits, hlen⟩ := Work.exists_auxTarget_iff.1 ⟨target, htarget⟩ _ haux
      exact absurd hdigits (by decide)

end Pool

end MergedMining
