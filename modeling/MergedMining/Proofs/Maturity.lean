import MergedMining.Chain
import MergedMining.Maturity
import MergedMining.Proofs.Decimal.Size

/-!
# How far a reward has come

The progress of an immature reward is the share of the confirmations it needs that it has, to three places.
That is never below zero (`zero_le_progress`), and at most one while there are no more confirmations than needed
(`progress_le_one`).  Nothing holds it there: what the wallet calls immature beyond that number has come further
than the whole way.
-/

namespace MergedMining

open Binary64 (Between)

/-- Whether the wallet calls a reward immature. -/
def WalletTransaction.IsImmature (t : WalletTransaction) : Prop := t.details.head?.map (·.category) = some "immature"

namespace Maturity

variable {t : WalletTransaction} {minimum : Nat} {x : Float}

/-! ### Three places -/

private theorem zero_le_roundThousandths (h : Between (-59) 7 x) : 0 ≤ roundThousandths x := by
  have hthousand : Between (-43) (-43) 1000 := by decide +kernel
  have hscaled : Between (-50) 18 (x * 1000) := h.mul hthousand (by decide) (by decide)
  unfold roundThousandths
  rcases hscaled.round_eq with hsame | ⟨n, hn⟩
  · rw [hsame]
    exact (hscaled.div hthousand (by decide) (by decide)).zero_le
  · rw [hn]
    by_cases hzero : n = 0
    · subst hzero
      decide +kernel
    · exact ((Binary64.between_toFloat hzero).div hthousand (by decide) (by decide)).zero_le

private theorem between_maturity (chain : Chain) :
    Between (-46) (-46) (Json.floatOfInt ((max chain.maturity 1 : Nat) : Int)) := by
  cases chain <;> decide +kernel

/-! ### Progress -/

theorem progress_of_immature (h : t.IsImmature) : (ofTransaction t minimum).status = .pending ∧
    (ofTransaction t minimum).progress =
      roundThousandths (Json.floatOfInt (max t.confirmations 0) / Json.floatOfInt ((max minimum 1 : Nat) : Int)) := by
  rw [WalletTransaction.IsImmature] at h
  rw [ofTransaction, h]
  exact ⟨rfl, rfl⟩

/-- A reward is pending exactly if the wallet calls it immature, and other rewards have come all the way or none
of it. -/
theorem ofTransaction_cases (t : WalletTransaction) (minimum : Nat) :
    (t.IsImmature ∧ (ofTransaction t minimum).status = .pending) ∨
    ((ofTransaction t minimum).status = .confirmed ∧ (ofTransaction t minimum).progress = 1) ∨
    ((ofTransaction t minimum).status = .orphaned ∧ (ofTransaction t minimum).progress = 0 ∧
      (ofTransaction t minimum).reward = 0) := by
  by_cases himmature : t.IsImmature
  · exact .inl ⟨himmature, (progress_of_immature himmature).1⟩
  · unfold ofTransaction
    split
    · next h => exact absurd h himmature
    · exact .inr (.inl ⟨rfl, rfl⟩)
    · exact .inr (.inr ⟨rfl, rfl, rfl⟩)

theorem zero_le_progress (h : t.IsImmature) (chain : Chain) : 0 ≤ (ofTransaction t chain.maturity).progress := by
  rw [(progress_of_immature h).2, Json.floatOfInt, if_neg (by omega)]
  generalize UInt64.ofNat (max t.confirmations 0).natAbs = n
  by_cases hzero : n = 0
  · subst hzero
    cases chain <;> decide +kernel
  · exact zero_le_roundThousandths
      ((Binary64.between_toFloat hzero).div (between_maturity chain) (by decide) (by decide))

private theorem progress_values (chain : Chain) : ∀ n ∈ List.range (chain.maturity + 1),
    roundThousandths (Json.floatOfInt n / Json.floatOfInt ((max chain.maturity 1 : Nat) : Int)) ≤ 1 := by
  cases chain <;> decide +kernel

theorem progress_le_one (h : t.IsImmature) {chain : Chain} (hmaturity : t.confirmations ≤ chain.maturity) :
    (ofTransaction t chain.maturity).progress ≤ 1 := by
  obtain ⟨n, hn⟩ : ∃ n : Nat, max t.confirmations 0 = n := Int.eq_ofNat_of_zero_le (Int.le_max_right _ _)
  rw [(progress_of_immature h).2, hn]
  exact progress_values chain n (List.mem_range.2 (by omega))

example : ¬ (ofTransaction ⟨1000, 25, [⟨"immature", 25⟩]⟩ Chain.litecoin.maturity).progress ≤ 1 := by
  decide +kernel

end Maturity

end MergedMining
