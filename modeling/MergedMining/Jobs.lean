import MergedMining.Recency
import MergedMining.Work

/-!
# Jobs in use

Miners work on the current job and may still answer older ones of the same height.  A new height, or a clean
refresh, ends all older jobs, and with them the memory of the headers that were handed in.
-/

namespace MergedMining

open Stratum (JobId)

/-- The jobs that answers are accepted for, and the headers handed in for them. -/
structure Jobs where
  current : Option Work
  valid : List (JobId × Work)
  seen : Recency
  nextId : JobId

namespace Jobs

/-- How many headers are remembered. -/
def seenCapacity : Nat := 65536

/-- No job yet. -/
def empty : Jobs := ⟨none, [], .ofCapacity seenCapacity, ⟨0⟩⟩

/-- Takes a job id that was not taken before. -/
def takeId (j : Jobs) : JobId × Jobs := (j.nextId, { j with nextId := j.nextId.next })

/-- The job that answers with this id are for. -/
def get? (j : Jobs) (id : JobId) : Option Work := j.valid.lookup id

/-- Whether a new job ends the older ones. -/
def ends (j : Jobs) (work : Work) (clean : Bool) : Bool :=
  clean || j.current.all fun current => current.height ≠ work.height

/-- Makes a job current; says whether it ended the older ones. -/
def publish (j : Jobs) (work : Work) (clean : Bool) : Bool × Jobs :=
  let clean := j.ends work clean
  let older := if clean then [] else j.valid.filter (·.1 ≠ work.jobId)
  (clean, { j with
    current := some work
    valid := (work.jobId, work) :: older
    seen := if clean then j.seen.clear else j.seen })

/-- Notes that a header was handed in; says whether it was before. -/
def isDuplicate (j : Jobs) (headerHash : Bytes) : Bool × Jobs :=
  let (seen, recency) := j.seen.touch headerHash
  (seen, { j with seen := recency })

end Jobs

end MergedMining
