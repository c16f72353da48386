import MergedMining.Proofs.Pool.Coinbase
import MergedMining.Proofs.Work.Requirements

/-!
# How submissions are checked

A submission whose block is rebuilt is a duplicate (`submit_of_duplicate`), or its check comes down to the
targets of its job (`submit_of_new`).  Nothing goes wrong inside the pool when previous hash, bits and target of
the job have the sizes that are asked of them (`submit_ne_internalError`), but a job is handed out without
asking for these sizes (`submit_internalError_sample`).
-/

namespace MergedMining

open Stratum (Id JobId Nonce Notify Ntime Refusal)

/-- The parameters of the submission of the sample. -/
def sampleParams : Json :=
  .arr [.str "rig", .str "00000000", .str "00000000", .str "6553f101", .str "00000000"]

theorem ofJson_sampleParams : Stratum.Submit.ofJson sampleParams = .ok (sampleSubmit ⟨0⟩) := rfl

namespace Pool

theorem get?_publishing {σ : Type} (p : Pool σ) (work : Work) (clean : Bool) :
    (p.publishing work clean).jobs.get? work.jobId = some work :=
  List.lookup_cons_self

variable {σ : Type} [Store σ] {p : Pool σ} {stage : Stage} {params : Json} {session : Session}
  {submit : Stratum.Submit} {work : Work} {block summed : Block} {header : Bytes} {sum : Target} {ip : Ip} {id : Id}

/-- What a miner is told when a check goes wrong inside the pool. -/
def internalError (id : Id) : Reaction := .refuse id (.withText .other "Internal error")

/-- A submission for a job is answered as its check comes out. -/
private theorem submit_eq_checkShare (hread : Stratum.Submit.ofJson params = .ok submit)
    (hjob : p.jobs.get? submit.jobId = some work)
    (hsize : submit.extranonce2.bytes.length = p.extranonces.minerSize) :
    p.submit ip (.authorized session) id params = match p.checkShare ip session work submit with
      | (.ok _, q) => (.answer (.result id (.bool true)), q)
      | (.error refusal, q) => (.refuse id refusal, q) := by
  rcases hcheck : p.checkShare ip session work submit with ⟨_ | _, q⟩
  · simp only [Pool.submit, hread, hjob, hsize, hcheck, ne_eq, not_true_eq_false, if_false]
  · simp only [Pool.submit, hread, hjob, hsize, hcheck, ne_eq, not_true_eq_false, if_false]

theorem Rebuilds.submit_of_duplicate (h : p.Rebuilds stage params session submit work block header)
    (hseen : (p.jobs.isDuplicate (sha256d header)).1 = true) :
    p.submit ip stage id params = (.refuse id (.of .duplicate), p.noting header) := by
  have hheader : block.header.getD [] = header := by rw [h.header_eq]; rfl
  have hdup : p.jobs.isDuplicate (sha256d header) = (true, (p.noting header).jobs) := Prod.ext hseen rfl
  rw [h.authorized, submit_eq_checkShare h.read h.job h.size]
  simp only [checkShare, h.made, hheader, hdup]
  rfl

/-- The check of a submission whose header is new. -/
theorem Rebuilds.submit_of_new (h : p.Rebuilds stage params session submit work block header)
    (hnew : (p.jobs.isDuplicate (sha256d header)).1 = false) (hsum : block.sum = .ok (sum, summed)) :
    p.submit ip stage id params = match work.auxTarget with
      | .error _ => (internalError id, p.noting header)
      | .ok aux =>
        match ShareStatus.ofSum sum work.template.target aux p.target with
        | .invalid => (.refuse id (.of .lowDifficulty), p.noting header)
        | status => (.answer (.result id (.bool true)),
          if status.isCandidate then
            (((p.noting header).recordShare session ip work sum).submitCandidate summed status session).2
          else (p.noting header).recordShare session ip work sum) := by
  have hheader : block.header.getD [] = header := by rw [h.header_eq]; rfl
  have hdup : p.jobs.isDuplicate (sha256d header) = (false, (p.noting header).jobs) := Prod.ext hnew rfl
  rw [h.authorized, submit_eq_checkShare h.read h.job h.size]
  simp only [checkShare, h.made, hheader, hdup, hsum]
  rcases work.auxTarget with e | aux
  · rfl
  · dsimp only
    rcases ShareStatus.ofSum sum work.template.target aux p.target with _ | _ | _ | _ | _ <;> rfl

/-- A submission of which no header can be made. -/
private theorem submit_of_unmade {e : EncodingFault} (hread : Stratum.Submit.ofJson params = .ok submit)
    (hjob : p.jobs.get? submit.jobId = some work)
    (hsize : submit.extranonce2.bytes.length = p.extranonces.minerSize)
    (hmade : (Block.ofWork work).makeHeader (session.extranonce1.bytes ++ submit.extranonce2.bytes) submit.nonce
      submit.ntime = .error e) :
    p.submit ip (.authorized session) id params = (internalError id, p) := by
  rw [submit_eq_checkShare hread hjob hsize]
  simp only [checkShare, hmade]
  rfl

private theorem refuse_of_ne_internalError {reason : Stratum.Reason} (h : reason.code ≠ Stratum.Reason.other.code) :
    Reaction.refuse id (.of reason) ≠ internalError id := by
  intro heq
  have hmessages := congrArg Reaction.messages heq
  injection hmessages with hmessage
  injection hmessage with _ _ hrefusal
  injection hrefusal with hrefusal
  -- what is left of the two reactions are their refusals, and these have different codes
  exact h (congrArg Refusal.code hrefusal)

/-- Once a block is rebuilt, only the target of a merge-mined block can still go wrong inside the pool. -/
private theorem Rebuilds.ne_internalError {target : Option Target}
    (h : p.Rebuilds stage params session submit work block header) (htarget : work.auxTarget = .ok target) :
    (p.submit ip stage id params).1 ≠ internalError id := by
  rcases hseen : (p.jobs.isDuplicate (sha256d header)).1 with _ | _
  · rw [h.submit_of_new hseen (Block.sum_eq_ok.2 ⟨header, h.header_eq, rfl, rfl⟩), htarget]
    dsimp only
    split
    · exact refuse_of_ne_internalError (by decide)
    · exact (Reaction.refuse_ne_answer _ _ _).symm
  · rw [h.submit_of_duplicate hseen]
    exact refuse_of_ne_internalError (by decide)

/-- Of an answer to a job a header can be made if, and only if, previous hash and bits of the template have
their sizes; the target of a merge-mined block that has one can be read.  A submission for such a job never
fails inside the pool. -/
theorem submit_ne_internalError {template : BlockTemplate} {aux : Option AuxBlock} {chain : Chain}
    {signature script : Bytes} {reserved : Nat} {jobId : JobId} {notify : Notify}
    (hwork : Work.build (some template) aux chain signature script reserved jobId = .ok (work, notify)) :
    (∀ (b : Block) (extranonce : Bytes) (nonce : Nonce) (ntime : Ntime), b.work = work →
      ((∃ made, b.makeHeader extranonce nonce ntime = .ok made) ↔
        Hex.IsDigits 64 template.previousHash ∧ Hex.IsDigits 8 template.bits)) ∧
    ((∀ a ∈ aux, a.HasTarget) → ∃ target, work.auxTarget = .ok target) ∧
    ∀ (p : Pool σ) (ip : Ip) (session : Session) (id : Id) {params : Json} {submit : Stratum.Submit},
      Stratum.Submit.ofJson params = .ok submit → p.jobs.get? submit.jobId = some work →
      submit.extranonce2.bytes.length = p.extranonces.minerSize →
      Hex.IsDigits 64 template.previousHash → Hex.IsDigits 8 template.bits → (∀ a ∈ aux, a.HasTarget) →
      (p.submit ip (.authorized session) id params).1 ≠ internalError id := by
  obtain ⟨htemplate, haux, -⟩ := Work.kept_of_build hwork
  have hmade : ∀ (b : Block) (extranonce : Bytes) (nonce : Nonce) (ntime : Ntime), b.work = work →
      ((∃ made, b.makeHeader extranonce nonce ntime = .ok made) ↔
        Hex.IsDigits 64 template.previousHash ∧ Hex.IsDigits 8 template.bits) := by
    intro b extranonce nonce ntime hb
    rw [Block.exists_makeHeader_iff, hb, htemplate]
  have htarget : (∀ a ∈ aux, a.HasTarget) → ∃ target, work.auxTarget = .ok target := by
    rw [Work.exists_auxTarget_iff, haux]
    exact id
  refine ⟨hmade, htarget, ?_⟩
  intro p ip session id params submit hread hjob hsize hprevious hbits hread'
  obtain ⟨made, hmade⟩ := (hmade (Block.ofWork work) (session.extranonce1.bytes ++ submit.extranonce2.bytes)
    submit.nonce submit.ntime rfl).2 ⟨hprevious, hbits⟩
  obtain ⟨target, htarget⟩ := htarget hread'
  obtain ⟨header, hheader⟩ := Block.exists_header hmade
  have hrebuilds : p.Rebuilds (.authorized session) params session submit work made header :=
    ⟨rfl, hread, hjob, hsize, hmade, hheader⟩
  exact hrebuilds.ne_internalError htarget

theorem submit_ne_internalError_sample : ∃ work notify,
    Work.build (some sampleTemplate) (some sampleAux) .dogecoin [0x2f] [0x51] 8 ⟨0⟩ = .ok (work, notify) ∧
    Stratum.Submit.ofJson sampleParams = .ok (sampleSubmit ⟨0⟩) ∧
    (samplePool.publishing work true).jobs.get? ⟨0⟩ = some work ∧
    (sampleSubmit ⟨0⟩).extranonce2.bytes.length = (samplePool.publishing work true).extranonces.minerSize ∧
    Hex.IsDigits 64 sampleTemplate.previousHash ∧ Hex.IsDigits 8 sampleTemplate.bits ∧ sampleAux.HasTarget ∧
    ((samplePool.publishing work true).submit (.four [10, 0, 0, 1]) (.authorized sampleSession) (.text "c")
      sampleParams).1 ≠ internalError (.text "c") := by
  obtain ⟨work, notify, hwork, -, -, hid⟩ := @exists_sampleAuxWork sampleAux rfl ⟨0⟩
  have hjob := samplePool.get?_publishing work true
  rw [hid] at hjob
  have hprevious : Hex.IsDigits 64 sampleTemplate.previousHash := by decide
  have hbits : Hex.IsDigits 8 sampleTemplate.bits := by decide
  have htarget : ∀ aux ∈ some sampleAux, aux.HasTarget := by
    intro aux haux
    cases haux
    exact sampleAux_hasTarget
  have hne := (submit_ne_internalError hwork).2.2 (samplePool.publishing work true)
    (.four [10, 0, 0, 1]) sampleSession (.text "c") ofJson_sampleParams hjob rfl hprevious hbits htarget
  exact ⟨work, notify, hwork, ofJson_sampleParams, hjob, rfl, hprevious, hbits, sampleAux_hasTarget, hne⟩

/-- A job is handed out for bits that no header can be made of, and every submission for it fails inside the pool. -/
theorem submit_internalError_sample : ∃ work notify,
    Work.build (some { sampleTemplate with bits := "zz" }) none .dogecoin [0x2f] [0x51] 8 ⟨0⟩ = .ok (work, notify) ∧
    (∀ (extranonce : Bytes) (nonce : Nonce) (ntime : Ntime) (made : Block),
      (Block.ofWork work).makeHeader extranonce nonce ntime ≠ .ok made) ∧
    Stratum.Submit.ofJson sampleParams = .ok (sampleSubmit ⟨0⟩) ∧
    (samplePool.publishing work true).jobs.get? ⟨0⟩ = some work ∧
    (sampleSubmit ⟨0⟩).extranonce2.bytes.length = (samplePool.publishing work true).extranonces.minerSize ∧
    ((samplePool.publishing work true).submit (.four [10, 0, 0, 1]) (.authorized sampleSession) (.text "c")
      sampleParams).1 = internalError (.text "c") := by
  obtain ⟨work', notify', hwork'⟩ := exists_sampleWork
  -- what a job needs to be built does not touch the bits
  have hneeds := Work.exists_build_iff.1 ⟨_, hwork'⟩
  obtain ⟨⟨work, notify⟩, hwork⟩ := (@Work.exists_build_iff { sampleTemplate with bits := "zz" } none .dogecoin [0x2f]
    [0x51] 8 ⟨0⟩).2 hneeds
  obtain ⟨htemplate, -, hid⟩ := Work.kept_of_build hwork
  have hnever : ∀ (extranonce : Bytes) (nonce : Nonce) (ntime : Ntime) (made : Block),
      (Block.ofWork work).makeHeader extranonce nonce ntime ≠ .ok made := by
    intro extranonce nonce ntime made hmade
    have hbits : Hex.IsDigits 8 work.template.bits := (Block.exists_makeHeader_iff.1 ⟨made, hmade⟩).2
    rw [htemplate] at hbits
    have hno : ¬ Hex.IsDigits 8 "zz" := by decide
    exact hno hbits
  have hjob := samplePool.get?_publishing work true
  rw [hid] at hjob
  rcases hmade : (Block.ofWork work).makeHeader
    (sampleSession.extranonce1.bytes ++ (sampleSubmit ⟨0⟩).extranonce2.bytes)
    (sampleSubmit ⟨0⟩).nonce (sampleSubmit ⟨0⟩).ntime with e | made
  · refine ⟨work, notify, hwork, hnever, ofJson_sampleParams, hjob, rfl, ?_⟩
    rw [submit_of_unmade ofJson_sampleParams hjob rfl hmade]
  · exact absurd hmade (hnever _ _ _ _)

end Pool

end MergedMining
