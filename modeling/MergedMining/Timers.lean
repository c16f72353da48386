/-!
# Periodic tasks

Time is counted in whole seconds.  A task rings a period after it was started and every period after that; of
several tasks that ring together, the one armed first comes first.
-/

namespace MergedMining

/-- A task with the time it rings next at. -/
structure Timer (τ : Type) where
  task : τ
  due : Nat
  period : Nat
  deriving Repr

/-- The tasks in the order they were armed. -/
abbrev Timers (τ : Type) := List (Timer τ)

namespace Timers

variable {τ : Type} [DecidableEq τ]

/-- Starts a task. -/
def start (timers : Timers τ) (now period : Nat) (task : τ) : Timers τ :=
  timers ++ [⟨task, now + period, period⟩]

/-- Ends a task. -/
def stop (timers : Timers τ) (task : τ) : Timers τ :=
  timers.filter (·.task ≠ task)

/-- Whether a task is running. -/
def isRunning (timers : Timers τ) (task : τ) : Bool :=
  timers.any (·.task = task)

/-- The tasks that ring. -/
def ringing (timers : Timers τ) (now : Nat) : List τ :=
  (timers.filter fun t => decide (t.due ≤ now)).map (·.task)

/-- Arms a task that has rung for its next time. -/
def rearm (timers : Timers τ) (task : τ) : Timers τ :=
  timers.filter (·.task ≠ task) ++
    (timers.filter (·.task = task)).map fun t => { t with due := t.due + t.period }

end Timers

end MergedMining
