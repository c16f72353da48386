import MergedMining.Pool.Candidate
import MergedMining.Proofs.Difficulty
import MergedMining.Proofs.Pool.Steady
import MergedMining.Proofs.Store.Journal

/-!
# Counted shares are stored

A counted share can be read from the journal exactly when its work and the target of its block are not zero
(`Share.isReadable_iff`): the difficulty of zero is infinite, and an infinite double is written as null.  So a
flush of counted shares leaves a journal that can be read and opened again exactly then
(`Pool.reopens_flush_recordShare_iff`).
-/

namespace MergedMining

/-! ### Readable shares -/

/-- A share can be read when neither its work nor the target of its block is infinitely difficult. -/
theorem Share.isReadable_iff {s : Share} {sum target : Target} {chain : Chain}
    (hdifficulty : s.difficulty = sum.difficulty * chain.shareMultiplier)
    (hnetwork : s.networkDifficulty = target.difficulty * chain.shareMultiplier) (hcreated : s.created.IsValid) :
    (Record.share s).IsReadable ↔ sum.toNat ≠ 0 ∧ target.toNat ≠ 0 := by
  obtain ⟨d, hd, hdzero, hdpos⟩ := sum.exists_rereadFloat_difficulty chain
  obtain ⟨n, hn, hnzero, hnpos⟩ := target.exists_rereadFloat_difficulty chain
  rw [← hdifficulty] at hd
  rw [← hnetwork] at hn
  rw [Record.IsReadable, Record.parse?_share s hd hn hcreated]
  constructor
  · rintro ⟨r, hr⟩
    refine ⟨fun hzero => ?_, fun hzero => ?_⟩
    · rw [hdzero hzero] at hr
      cases hr
    · rw [hnzero hzero] at hr
      rcases hd : d.toFloat? with _ | x
      · rw [hd] at hr
        cases hr
      · rw [hd] at hr
        cases hr
  · rintro ⟨hsum, htarget⟩
    obtain ⟨x, rfl⟩ := hdpos hsum
    obtain ⟨y, rfl⟩ := hnpos htarget
    exact ⟨_, rfl⟩

/-! ### Flushes -/

/-- A journal takes all waiting shares. -/
theorem ShareBuffer.flush_journal {b : ShareBuffer} (h : b.waiting ≠ []) (j : Journal) :
    b.flush j = (.ok b.waiting.length, ⟨[], none⟩, j.append (b.waiting.map .share)) := by
  have hbatch : ¬ b.waiting.isEmpty = true := by rwa [List.isEmpty_iff]
  unfold flush
  dsimp only
  rw [if_neg hbatch]
  rfl

namespace Pool

theorem exists_recordShare_waiting {σ : Type} {p : Pool σ} (hclock : p.clock.IsValid) (session : Session) (ip : Ip)
    (work : Work) (sum : Target) :
    ∃ share, (p.recordShare session ip work sum).shares.waiting = p.shares.waiting ++ [share] ∧
      ((Record.share share).IsReadable ↔ sum.toNat ≠ 0 ∧ work.template.target.toNat ≠ 0) :=
  ⟨_, rfl, Share.isReadable_iff rfl rfl hclock⟩

variable {p : Pool Journal} {old : List Record}

private theorem exists_flush_recordShare (hwhole : Journal.IsWhole p.store.text)
    (hold : Journal.records p.store.text = .ok old) (hwaiting : ∀ s ∈ p.shares.waiting, (Record.share s).IsReadable)
    (hclock : p.clock.IsValid) (session : Session) (ip : Ip) (work : Work) (sum : Target) :
    ∃ buffer journal, (p.recordShare session ip work sum).shares.flush p.store =
        (.ok (p.shares.waiting.length + 1), buffer, journal) ∧
      ((∃ all, Journal.records journal.text = .ok all) ↔ sum.toNat ≠ 0 ∧ work.template.target.toNat ≠ 0) := by
  obtain ⟨share, hshare, hreadable⟩ := exists_recordShare_waiting hclock session ip work sum
  have hne : (p.recordShare session ip work sum).shares.waiting ≠ [] := by
    rw [hshare]
    exact List.concat_ne_nil share _
  refine ⟨⟨[], none⟩, p.store.append ((p.shares.waiting ++ [share]).map .share), ?_, ?_⟩
  · rw [ShareBuffer.flush_journal hne, hshare, List.length_append, List.length_singleton]
  · refine (Journal.exists_records_append_iff hwhole hold _).trans ?_
    rw [List.forall_mem_map, List.forall_mem_append, List.forall_mem_singleton, ← hreadable]
    exact and_iff_right hwaiting

/-- When a share was counted and the waiting shares were stored, the journal can be read, and be opened again,
unless the work or the target of its block is zero. -/
theorem reopens_flush_recordShare_iff (hwhole : Journal.IsWhole p.store.text)
    (hold : Journal.records p.store.text = .ok old) (hwaiting : ∀ s ∈ p.shares.waiting, (Record.share s).IsReadable)
    (hclock : p.clock.IsValid) (session : Session) (ip : Ip) (work : Work) (sum : Target) :
    ∃ buffer journal, (p.recordShare session ip work sum).shares.flush p.store =
        (.ok (p.shares.waiting.length + 1), buffer, journal) ∧
      (∀ poolId, (∃ bs, Store.pendingBlocks journal poolId = (.ok bs, journal)) ↔
        sum.toNat ≠ 0 ∧ work.template.target.toNat ≠ 0) ∧
      ((∃ reopened, Journal.ofText journal.text = .ok reopened) ↔
        sum.toNat ≠ 0 ∧ work.template.target.toNat ≠ 0) := by
  obtain ⟨buffer, journal, hflush, hread⟩ := exists_flush_recordShare hwhole hold hwaiting hclock session ip work sum
  exact ⟨buffer, journal, hflush, fun _ => Journal.exists_pendingBlocks_iff.trans hread,
    Journal.exists_ofText_iff.trans hread⟩

/-! ### A pool with an empty journal -/

/-- The sample pool, with a journal that nothing is written in. -/
def sampleJournalPool : Pool Journal := { samplePool with store := ⟨"", 1⟩ }

/-- A job for a template. -/
def sampleJob (template : BlockTemplate) : Work := ⟨⟨7⟩, .dogecoin, template, none, "", ⟨[], []⟩, []⟩

theorem reopens_flush_recordShare_iff_sample : ∃ buffer journal,
    (sampleJournalPool.recordShare sampleSession (.four [10, 0, 0, 1]) (sampleJob sampleTemplate)
      (.ofNat 1)).shares.flush sampleJournalPool.store = (.ok 1, buffer, journal) ∧
    (∃ bs, Store.pendingBlocks journal "pool" = (.ok bs, journal)) ∧
    ∃ reopened, Journal.ofText journal.text = .ok reopened := by
  obtain ⟨buffer, journal, hflush, hpending, hreopened⟩ := @reopens_flush_recordShare_iff sampleJournalPool []
    Journal.isWhole_empty rfl (fun _ h => absurd h List.not_mem_nil) Timestamp.isValid_epoch sampleSession
    (.four [10, 0, 0, 1]) (sampleJob sampleTemplate) (.ofNat 1)
  have hpositive : (Target.ofNat 1).toNat ≠ 0 ∧ (sampleJob sampleTemplate).template.target.toNat ≠ 0 := by decide
  exact ⟨buffer, journal, hflush, (hpending "pool").2 hpositive, hreopened.2 hpositive⟩

/-- A daemon may hand out a template that no work is enough for.  A share that is counted for it is stored
without fault, and then the journal can neither be read nor be opened. -/
theorem not_reopens_of_target_zero : ∃ template,
    BlockTemplate.ofJson? { sampleTemplate with target := .ofNat 0 }.toJson = some template ∧
    ShareStatus.ofSum (.ofNat 1) template.target none sampleJournalPool.target = .valid ∧
    ∃ buffer journal,
      (sampleJournalPool.recordShare sampleSession (.four [10, 0, 0, 1]) (sampleJob template) (.ofNat 1)).shares.flush
        sampleJournalPool.store = (.ok 1, buffer, journal) ∧
      (¬ ∃ bs, Store.pendingBlocks journal "pool" = (.ok bs, journal)) ∧
      ¬ ∃ reopened, Journal.ofText journal.text = .ok reopened := by
  obtain ⟨buffer, journal, hflush, hread⟩ := @exists_flush_recordShare sampleJournalPool []
    Journal.isWhole_empty rfl (fun _ h => absurd h List.not_mem_nil) Timestamp.isValid_epoch sampleSession
    (.four [10, 0, 0, 1]) (sampleJob { sampleTemplate with target := .ofNat 0 }) (.ofNat 1)
  have hnot : ¬ ∃ all, Journal.records journal.text = .ok all := by
    rw [hread]
    decide
  refine ⟨_, by rfl, by decide, buffer, journal, hflush, ?_, ?_⟩
  · rwa [Journal.exists_pendingBlocks_iff]
  · rwa [Journal.exists_ofText_iff]

end Pool

end MergedMining
