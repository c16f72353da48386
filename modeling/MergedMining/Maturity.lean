import MergedMining.Daemon.Request
import MergedMining.Decimal.Binary64
import MergedMining.Store.FoundBlock

/-!
# Maturity of rewards

The wallet says what has become of the reward of a block: it can be spent, it has too few confirmations, or it
is gone with its block.
-/

namespace MergedMining

/-- What has become of the reward of a block. -/
structure Maturity where
  status : BlockStatus
  progress : Float
  reward : Float
  deriving Repr

namespace Maturity

/-- A number with three places behind the point. -/
def roundThousandths (x : Float) : Float := Binary64.round (x * 1000) / 1000

/-- What a transaction says, given the confirmations it needs. -/
def ofTransaction (t : WalletTransaction) (minimum : Nat) : Maturity :=
  match t.details.head?.map (·.category) with
  | some "immature" =>
    ⟨.pending,
      roundThousandths (Json.floatOfInt (max t.confirmations 0) / Json.floatOfInt ((max minimum 1 : Nat) : Int)),
      t.amount⟩
  | some "generate" => ⟨.confirmed, 1, t.amount⟩
  | _ => ⟨.orphaned, 0, 0⟩

end Maturity

end MergedMining
