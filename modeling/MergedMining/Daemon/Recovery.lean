import MergedMining.Daemon.Cluster
import MergedMining.Timers

/-!
# Recovery tasks

Each cluster whose first node is not the active one has a recovery task, which looks at the first node
periodically.  `schedule` keeps the tasks in step with the clusters; after a cancellation no task runs on.  A
`Watch` is one cluster with its task.
-/

namespace MergedMining

namespace Cluster

variable {τ : Type} [DecidableEq τ]

/-- Starts the task of a cluster that has begun to recover, and stops that of one that has ended.  Without a
period the task fails at its start, and the cluster counts as recovering all the same. -/
def schedule (c : Cluster) (now period : Nat) (task : τ) (timers : Timers τ) : Timers τ :=
  if c.recovering then
    if period = 0 ∨ timers.isRunning task then timers else timers.start now period task
  else timers.stop task

end Cluster

/-- A cluster whose recovery task runs as time passes. -/
structure Watch where
  cluster : Cluster
  daemons : Daemons
  timers : Timers Unit
  period : Nat
  now : Nat
  cancelled : Bool

namespace Watch

/-- A cluster that needs no recovery yet. -/
def ofCluster (cluster : Cluster) (daemons : Daemons) (period : Nat) : Watch :=
  ⟨cluster, daemons, [], period, 0, false⟩

/-- Brings the recovery task in step with the cluster. -/
def settle (w : Watch) : Watch :=
  let cluster := if w.cancelled then w.cluster.cancel else w.cluster
  { w with cluster, timers := cluster.schedule w.now w.period () w.timers }

/-- Makes sure that the active node is healthy. -/
def check (w : Watch) : Except Fault Unit × Watch :=
  let (result, cluster, daemons) := w.cluster.check w.daemons
  (result, { w with cluster, daemons }.settle)

/-- Asks the active node. -/
def call {α : Type} (w : Watch) (request : Node → Asking α) : Except Fault α × Watch :=
  let (result, cluster, daemons) := w.cluster.call request w.daemons
  (result, { w with cluster, daemons }.settle)

/-- The recovery task looks at the first node. -/
def recover (w : Watch) : Watch :=
  let (cluster, daemons) := w.cluster.recover w.daemons
  { w with cluster, daemons, timers := w.timers.rearm () }.settle

/-- Time passes. -/
def advance : Nat → Watch → Watch
  | 0, w => w
  | n + 1, w =>
    let w := { w with now := w.now + 1 }
    advance n ((w.timers.ringing w.now).foldl (fun w _ => w.recover) w)

/-- Ends the recovery for good. -/
def cancel (w : Watch) : Watch := { w with cancelled := true }.settle

end Watch

end MergedMining
