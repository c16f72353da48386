import MergedMining.Daemon.Recovery
import MergedMining.Unlock

/-!
# Unlocking periodically

The pending blocks are looked at once a period, while the recovery tasks of the chains run beside.
-/

namespace MergedMining

/-- The periodic tasks around unlocking. -/
inductive UnlockTask
  | unlock
  | recovery (index : Nat)
  deriving Repr, DecidableEq

/-- An unlocker with its tasks. -/
structure UnlockSchedule (σ : Type) where
  unlocker : Unlocker σ
  recoveryPeriods : List Nat
  timers : Timers UnlockTask
  now : Nat
  cancelled : Bool

namespace UnlockSchedule

variable {σ : Type}

/-- An unlocker without tasks. -/
def ofUnlocker (unlocker : Unlocker σ) (recoveryPeriods : List Nat) : UnlockSchedule σ :=
  ⟨unlocker, recoveryPeriods, [], 0, false⟩

/-- Brings the recovery tasks of some chains in step with their daemons. -/
def scheduleFrom (now : Nat) (index : Nat) :
    List (Chain × Cluster) → List Nat → Timers UnlockTask → Timers UnlockTask
  | [], _, timers => timers
  | (_, cluster) :: rest, periods, timers =>
    scheduleFrom now (index + 1) rest periods.tail
      (cluster.schedule now (periods.headD 60) (.recovery index) timers)

/-- Brings the recovery tasks in step. -/
def settle (s : UnlockSchedule σ) : UnlockSchedule σ :=
  let clusters := if s.cancelled then s.unlocker.clusters.map fun (chain, cluster) => (chain, cluster.cancel)
    else s.unlocker.clusters
  { s with
    unlocker := { s.unlocker with clusters }
    timers := scheduleFrom s.now 0 clusters s.recoveryPeriods s.timers }

/-- One pass over the pending blocks. -/
def unlock [Store σ] (s : UnlockSchedule σ) : Except Failure Nat × UnlockSchedule σ :=
  let (result, unlocker) := s.unlocker.unlock
  (result, { s with unlocker }.settle)

/-- Starts the periodic passes. -/
def start (s : UnlockSchedule σ) (period : Nat) : UnlockSchedule σ :=
  if s.cancelled then s else { s with timers := s.timers.start s.now period .unlock }

/-- One look of a recovery task at the first node of a chain. -/
def recover (u : Unlocker σ) (index : Nat) : Unlocker σ :=
  match u.clusters[index]? with
  | none => u
  | some (chain, cluster) =>
    let (cluster, daemons) := cluster.recover u.daemons
    { u with clusters := u.clusters.set index (chain, cluster), daemons }

/-- Does what a task does when it rings. -/
def run [Store σ] (s : UnlockSchedule σ) : UnlockTask → UnlockSchedule σ
  | .unlock => s.unlock.2
  | .recovery index => { s with unlocker := recover s.unlocker index }.settle

/-- A task rings. -/
def ring [Store σ] (s : UnlockSchedule σ) (task : UnlockTask) : UnlockSchedule σ :=
  if s.timers.isRunning task then { s with timers := s.timers.rearm task }.run task else s

/-- Time passes. -/
def advance [Store σ] : Nat → UnlockSchedule σ → UnlockSchedule σ
  | 0, s => s
  | n + 1, s =>
    let s := { s with now := s.now + 1 }
    advance n ((s.timers.ringing s.now).foldl ring s)

/-- Ends all tasks for good. -/
def cancel (s : UnlockSchedule σ) : UnlockSchedule σ :=
  { s with cancelled := true, timers := [] }.settle

end UnlockSchedule

end MergedMining
