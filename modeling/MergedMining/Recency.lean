import MergedMining.Bytes
import Std.Data.TreeMap

/-!
# The most recent byte strings

A `Recency` remembers the byte strings that were touched last, up to a number of them.  Touching one says
whether it was remembered, and makes it the most recent; to make room, the one that was not touched for the
longest time is forgotten.
-/

namespace MergedMining

/-- Byte strings with the times they were last touched at, both ways. -/
structure Recency where
  capacity : Nat
  clock : Nat
  stamps : Std.TreeMap Bytes Nat compare
  order : Std.TreeMap Nat Bytes compare

namespace Recency

/-- Nothing remembered. -/
def ofCapacity (capacity : Nat) : Recency := ⟨capacity, 0, ∅, ∅⟩

/-- Forgets everything. -/
def clear (r : Recency) : Recency := ofCapacity r.capacity

/-- Whether a byte string is remembered. -/
def contains (r : Recency) (key : Bytes) : Bool := r.stamps.contains key

/-- Forgets a byte string that was last touched at the given time. -/
def forget (r : Recency) (stamp : Nat) (key : Bytes) : Recency :=
  { r with stamps := r.stamps.erase key, order := r.order.erase stamp }

/-- Forgets the byte string that was not touched for the longest time. -/
def dropOldest (r : Recency) : Recency :=
  match r.order.minKey? with
  | none => r
  | some stamp =>
    match r.order[stamp]? with
    | none => r
    | some key => r.forget stamp key

/-- Makes a byte string the most recent one. -/
def stamp (r : Recency) (key : Bytes) : Recency :=
  { r with
    clock := r.clock + 1
    stamps := r.stamps.insert key r.clock
    order := r.order.insert r.clock key }

/-- Touches a byte string; says whether it was remembered. -/
def touch (r : Recency) (key : Bytes) : Bool × Recency :=
  match r.stamps[key]? with
  | some old => (true, (r.forget old key).stamp key)
  | none => (false, (if r.stamps.size < r.capacity then r else r.dropOldest).stamp key)

end Recency

end MergedMining
