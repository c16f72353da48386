import MergedMining.Proofs.Maturity
import MergedMining.Proofs.Unlock.Recorded

/-!
# Status, progress and reward fit together

A look sets status, progress and reward of a block at once when the wallet was asked, so that they fit together:
a pending block has come part of the way, a confirmed one all of it, and an orphaned one none of it and earns
nothing.  Two things the daemons may say are the exceptions.  A reward that the wallet calls immature with more
confirmations than it needs is beyond the whole way, and a block that is orphaned because another coinbase is
reported keeps the progress that it had made.
-/

namespace MergedMining

open Daemons (Exchange Learned Reported)

namespace FoundBlock

variable {new newer : List Exchange} {b b' : FoundBlock}

/-- Whether the wallet called the reward of a block immature with more confirmations than it needs. -/
def Overdue (new : List Exchange) (b : FoundBlock) : Prop :=
  ∃ (chain : Chain) (txid : String) (t : WalletTransaction), chain.name = b.chain ∧ Reported new b.hash txid ∧
    Hex.reversePairs txid = .ok b.confirmation ∧
    Learned new "gettransaction" [.str txid.toLower] WalletTransaction.ofJson? t ∧ t.IsImmature ∧
    (chain.maturity : Int) < t.confirmations

/-- Whether a block was reported with another transaction than the recorded one at its start. -/
def Disowned (new : List Exchange) (b : FoundBlock) : Prop :=
  ∃ txid confirmation, Reported new b.hash txid ∧ Hex.reversePairs txid = .ok confirmation ∧ b.confirmation ≠ "" ∧
    b.confirmation ≠ confirmation

/-- A record whose status, progress and reward fit together, as far as the daemons' answers allow. -/
structure Consistent (new : List Exchange) (b : FoundBlock) : Prop where
  pending : b.status = .pending → 0 ≤ b.progress ∧ (b.progress ≤ 1 ∨ b.Overdue new)
  confirmed : b.status = .confirmed → b.progress = 1
  orphaned : b.status = .orphaned → b.reward = 0 ∧ (b.progress = 0 ∨ b.Disowned new)

theorem Overdue.mono (h : b.Overdue new) (hsubset : new ⊆ newer) : b.Overdue newer := by
  obtain ⟨chain, txid, t, hchain, hreported, hconfirmation, hlearned, hlate⟩ := h
  exact ⟨chain, txid, t, hchain, hreported.mono hsubset, hconfirmation, hlearned.mono hsubset, hlate⟩

theorem Disowned.mono (h : b.Disowned new) (hsubset : new ⊆ newer) : b.Disowned newer := by
  obtain ⟨txid, confirmation, hreported, hrest⟩ := h
  exact ⟨txid, confirmation, hreported.mono hsubset, hrest⟩

theorem Consistent.mono (h : b.Consistent new) (hsubset : new ⊆ newer) : b.Consistent newer where
  pending hstatus := (h.pending hstatus).imp_right (Or.imp_right fun hlate => hlate.mono hsubset)
  confirmed := h.confirmed
  orphaned hstatus := (h.orphaned hstatus).imp_right (Or.imp_right fun hother => hother.mono hsubset)

/-- A block that was just found has made no progress. -/
theorem IsWritten.consistent (h : b.IsWritten) (id : Int) : Consistent new { b with id } := by
  obtain ⟨hstatus, hprogress⟩ := h.fresh
  have hpending : ({ b with id } : FoundBlock).status = .pending := hstatus
  refine ⟨fun _ => ?_, fun hother => ?_, fun hother => ?_⟩
  · show 0 ≤ b.progress ∧ (b.progress ≤ 1 ∨ _)
    rw [hprogress]
    exact ⟨by decide, .inl (by decide)⟩
  · rw [hpending] at hother
    cases hother
  · rw [hpending] at hother
    cases hother

end FoundBlock

/-- Whatever the record of a block was, a look leaves one that fits together. -/
theorem Judged.consistent {new : List Exchange} {b b' : FoundBlock} (h : Judged new b b') : b'.Consistent new := by
  cases h with
  | disowned hreported hconfirmation hrecorded hne =>
    exact ⟨nofun, nofun, fun _ => ⟨rfl, .inr ⟨_, _, hreported, hconfirmation, hrecorded, hne⟩⟩⟩
  | @settled txid confirmation t chain hreported hconfirmation hrecorded hchain htransaction =>
    rcases Maturity.ofTransaction_cases t chain.maturity with ⟨himmature, hstatus⟩ | ⟨hstatus, hprogress⟩ |
      ⟨hstatus, hprogress, hreward⟩
    · refine ⟨fun _ => ⟨Maturity.zero_le_progress himmature chain, ?_⟩, fun hother => ?_, fun hother => ?_⟩
      · by_cases hlate : (chain.maturity : Int) < t.confirmations
        · exact .inr ⟨chain, txid, t, hchain, hreported, hconfirmation, htransaction, himmature, hlate⟩
        · exact .inl (Maturity.progress_le_one himmature (by omega))
      · cases hstatus.symm.trans hother
      · cases hstatus.symm.trans hother
    · refine ⟨fun hother => ?_, fun _ => hprogress, fun hother => ?_⟩
      · cases hstatus.symm.trans hother
      · cases hstatus.symm.trans hother
    · refine ⟨fun hother => ?_, fun hother => ?_, fun _ => ⟨hreward, .inl hprogress⟩⟩
      · cases hstatus.symm.trans hother
      · cases hstatus.symm.trans hother

namespace Unlocker

variable {σ : Type} [Store σ]

/-- When a store is filled by a pool and gone over by passes only, the records in it fit together. -/
theorem run_consistent (T : Store.Table σ) {u : Unlocker σ} (hu : T.IsSound u.store)
    (hempty : ∀ id, T.record? u.store id = none) {es : List Event} (hes : ∀ b ∈ inserted es, b.IsWritten) :
    ∃ new, u.daemons.After new (u.run es).daemons ∧
      ∀ id b, T.record? (u.run es).store id = some b → b.Consistent new := by
  obtain ⟨new, hrun⟩ := run_proceeds hu es
  refine ⟨new, hrun.daemons, fun id b hb => ?_⟩
  rcases hrun.origin id b hb with hold | ⟨_, hjudged⟩ | ⟨c, hc, rfl⟩
  · rw [hempty] at hold
    cases hold
  · exact hjudged.consistent
  · exact (hes c hc).consistent id

/-! ### Samples -/

/-- A wallet that calls a reward immature long after it was due. -/
def sampleOverdue : Unlocker Ledger := scripted (immatureReply (fun _ => "00ff") 1000) []

/-- A daemon that reports the recorded coinbase at first, and then another one. -/
def sampleDisowned : Unlocker Ledger :=
  scripted (immatureReply (fun earlier => if earlier.isEmpty then "00ff" else "11") 51) []

theorem isWritten_sampleRecorded : sampleRecorded.IsWritten := by
  obtain ⟨q, hsubmit⟩ := submitAux_sampleNamed
  exact ⟨Ledger, _, q, _, _, _, .inr hsubmit⟩

theorem run_consistent_sample : Ledger.table.IsSound sampleDisowned.store ∧
    (∀ id, Ledger.table.record? sampleDisowned.store id = none) ∧
    (∀ b ∈ inserted [.insert sampleRecorded, .unlock, .unlock], b.IsWritten) ∧
    ∃ b, Ledger.table.record? (sampleDisowned.run [.insert sampleRecorded, .unlock, .unlock]).store 1 = some b ∧
      b.status = .orphaned ∧ b.reward = 0 := by
  have hwritten : ∀ b ∈ inserted [.insert sampleRecorded, .unlock, .unlock], b.IsWritten := by
    intro b hb
    rw [List.mem_singleton.1 hb]
    exact isWritten_sampleRecorded
  obtain ⟨new, -, hconsistent⟩ :=
    run_consistent Ledger.table (u := sampleDisowned) Ledger.isSound_empty (fun _ => rfl) hwritten
  have hstatus : (Ledger.table.record? (sampleDisowned.run [.insert sampleRecorded, .unlock, .unlock]).store 1).map
      (·.status) = some .orphaned := by decide +kernel
  obtain ⟨b, hb, horphaned⟩ := Option.map_eq_some_iff.1 hstatus
  exact ⟨Ledger.isSound_empty, fun _ => rfl, hwritten, b, hb, horphaned, ((hconsistent 1 b hb).orphaned horphaned).1⟩

/-- Neither exception can be left out: there are pending blocks that have come further than the whole way, and
orphaned ones that have come part of it. -/
theorem not_consistent_sample : sampleRecorded.IsWritten ∧
    (∃ b, Ledger.table.record? (sampleOverdue.run [.insert sampleRecorded, .unlock]).store 1 = some b ∧
      b.status = .pending ∧ ¬ b.progress ≤ 1) ∧
    ∃ b, Ledger.table.record? (sampleDisowned.run [.insert sampleRecorded, .unlock, .unlock]).store 1 = some b ∧
      b.status = .orphaned ∧ 0 < b.progress := by
  have hoverdue : (Ledger.table.record? (sampleOverdue.run [.insert sampleRecorded, .unlock]).store 1).map
      (fun b => (b.status, decide (b.progress ≤ 1))) = some (.pending, false) := by decide +kernel
  have hdisowned : (Ledger.table.record? (sampleDisowned.run [.insert sampleRecorded, .unlock, .unlock]).store 1).map
      (fun b => (b.status, decide (0 < b.progress))) = some (.orphaned, true) := by decide +kernel
  obtain ⟨b, hb, hpending⟩ := Option.map_eq_some_iff.1 hoverdue
  obtain ⟨c, hc, horphaned⟩ := Option.map_eq_some_iff.1 hdisowned
  obtain ⟨hbstatus, hbprogress⟩ := Prod.mk.inj hpending
  obtain ⟨hcstatus, hcprogress⟩ := Prod.mk.inj horphaned
  exact ⟨isWritten_sampleRecorded, ⟨b, hb, hbstatus, of_decide_eq_false hbprogress⟩, c, hc, hcstatus,
    of_decide_eq_true hcprogress⟩

end Unlocker

end MergedMining
