import MergedMining.Store.Basic

/-!
# Shares waiting to be stored

Shares are collected and handed to the store together.  A flush takes the batch, offers it to the store and
settles: a batch that the store refused goes back in front of everything that came in the meantime.
-/

namespace MergedMining

/-- Waiting shares, and the batch that is being stored. -/
structure ShareBuffer where
  waiting : List Share
  inFlight : Option (List Share)

namespace ShareBuffer

/-- A buffer with nothing in it. -/
def empty : ShareBuffer := ⟨[], none⟩

/-- Adds a share. -/
def push (b : ShareBuffer) (share : Share) : ShareBuffer :=
  { b with waiting := b.waiting ++ [share] }

/-- Takes all waiting shares as the batch. -/
def take (b : ShareBuffer) : ShareBuffer := ⟨[], some b.waiting⟩

/-- Ends a flush: a batch that was not stored waits again, in front. -/
def settle (b : ShareBuffer) (stored : Bool) : ShareBuffer :=
  match b.inFlight with
  | none => b
  | some batch => ⟨if stored then b.waiting else batch ++ b.waiting, none⟩

/-- The outcome of a flush: how many shares were stored, or how many were not and why. -/
abbrev FlushResult := Except (Nat × StoreFault) Nat

/-- Stores the waiting shares; the store is not asked when there are none. -/
def flush {σ : Type} [Store σ] (b : ShareBuffer) (store : σ) : FlushResult × ShareBuffer × σ :=
  let batch := b.waiting
  if batch.isEmpty then (.ok 0, b, store)
  else
    let taken := b.take
    match Store.insertShares store batch with
    | (.ok (), store) => (.ok batch.length, taken.settle true, store)
    | (.error e, store) => (.error (batch.length, e), taken.settle false, store)

end ShareBuffer

end MergedMining
