import MergedMining.Share.Buffer
import MergedMining.Timers

/-!
# Storing shares periodically

A flusher stores the waiting shares once a period, and a last time when it is cancelled.
-/

namespace MergedMining

/-- A buffer, the store that it is flushed to, and the task that does so. -/
structure Flusher (σ : Type) where
  buffer : ShareBuffer
  store : σ
  timers : Timers Unit
  now : Nat

namespace Flusher

variable {σ : Type}

/-- Nothing to be stored, and no task. -/
def ofStore (store : σ) : Flusher σ := ⟨.empty, store, [], 0⟩

/-- Adds a share. -/
def push (f : Flusher σ) (share : Share) : Flusher σ := { f with buffer := f.buffer.push share }

/-- Stores the waiting shares. -/
def flush [Store σ] (f : Flusher σ) : ShareBuffer.FlushResult × Flusher σ :=
  let (result, buffer, store) := f.buffer.flush f.store
  (result, { f with buffer, store })

/-- Starts the task. -/
def start (f : Flusher σ) (period : Nat) : Flusher σ := { f with timers := f.timers.start f.now period () }

/-- The task rings. -/
def ring [Store σ] (f : Flusher σ) : Flusher σ := { f with timers := f.timers.rearm () }.flush.2

/-- Time passes. -/
def advance [Store σ] : Nat → Flusher σ → Flusher σ
  | 0, f => f
  | n + 1, f =>
    let f := { f with now := f.now + 1 }
    advance n ((f.timers.ringing f.now).foldl (fun f _ => f.ring) f)

/-- Ends the task after a last flush; says whether there was one. -/
def cancel [Store σ] (f : Flusher σ) : Bool × Flusher σ :=
  if f.timers.isRunning () then (true, { f.flush.2 with timers := [] }) else (false, f)

end Flusher

end MergedMining
