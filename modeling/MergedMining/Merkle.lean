/-!
# Merkle trees

A tree over a list of leaves combines neighbours level by level; a level of odd length counts its last node
twice.  `root` builds the whole tree.  `branch` climbs from level to level without knowing the first leaf, and
so the first node of any level, and notes the siblings on the way from that leaf to the root; `fold` combines
the leaf with them.
-/

namespace MergedMining

namespace Merkle

variable {α : Type}

/-- The next level of a tree: neighbours combined, a last node without neighbour with itself. -/
def level (combine : α → α → α) : List α → List α
  | a :: b :: rest => combine a b :: level combine rest
  | [a] => [combine a a]
  | [] => []

theorem length_level (combine : α → α → α) (nodes : List α) :
    (level combine nodes).length = (nodes.length + 1) / 2 := by
  fun_induction level combine nodes with
  | case1 a b rest ih =>
    simp only [List.length_cons, ih]
    omega
  | case2 => simp
  | case3 => simp

/-- A level with an even number of nodes: the last of an odd number stands there twice. -/
def evened (nodes : List α) : List α :=
  if nodes.length % 2 = 1 then nodes ++ nodes.getLast?.toList else nodes

/-- Neighbours combined two by two. -/
def pairs (combine : α → α → α) : List α → List α
  | a :: b :: rest => combine a b :: pairs combine rest
  | [_] => []
  | [] => []

theorem length_evened (nodes : List α) : (evened nodes).length = nodes.length + nodes.length % 2 := by
  unfold evened
  split
  · rcases h : nodes.getLast? with _ | last
    · simp_all
    · simp; omega
  · omega

theorem length_pairs (combine : α → α → α) (nodes : List α) :
    (pairs combine nodes).length = nodes.length / 2 := by
  fun_induction pairs combine nodes with
  | case1 a b rest ih =>
    simp only [List.length_cons, ih]
    omega
  | case2 => simp
  | case3 => simp

/-- The root of the whole tree: from each level to the next until one node is left.  No leaves have no root. -/
def root (combine : α → α → α) : List α → Option α
  | [] => none
  | [node] => some node
  | a :: b :: rest => root combine (pairs combine (evened (a :: b :: rest)))
termination_by nodes => nodes.length
decreasing_by
  simp only [length_pairs, length_evened, List.length_cons]
  omega

/-- The pairs of two known nodes combined; any other pair is left out. -/
def knownPairs (combine : α → α → α) : List (Option α) → List α
  | some a :: some b :: rest => combine a b :: knownPairs combine rest
  | _ :: _ :: rest => knownPairs combine rest
  | [_] => []
  | [] => []

theorem length_knownPairs_le (combine : α → α → α) (nodes : List (Option α)) :
    (knownPairs combine nodes).length ≤ nodes.length / 2 := by
  fun_induction knownPairs combine nodes with
  | case1 a b rest ih =>
    simp only [List.length_cons]
    omega
  | case2 =>
    simp only [List.length_cons]
    omega
  | case3 => simp
  | case4 => simp

/-- The nodes of a level behind the first pair. -/
def laterNodes (nodes : List (Option α)) : List (Option α) := (evened nodes).drop 2

/-- The next level of a tree whose first leaf is not known: its first node is not known either. -/
def climb (combine : α → α → α) (nodes : List (Option α)) : List (Option α) :=
  none :: (knownPairs combine (laterNodes nodes)).map some

theorem length_climb_lt (combine : α → α → α) {nodes : List (Option α)} (h : 2 ≤ nodes.length) :
    (climb combine nodes).length < nodes.length := by
  have hle := length_knownPairs_le combine (laterNodes nodes)
  rw [laterNodes, List.length_drop, length_evened] at hle
  rw [climb, List.length_cons, List.length_map, laterNodes]
  omega

/-- The second nodes of the levels from the given one up to the root, as far as they are known. -/
def siblings (combine : α → α → α) : List (Option α) → List α
  | first :: second :: rest => second.toList ++ siblings combine (climb combine (first :: second :: rest))
  | _ => []
termination_by nodes => nodes.length
decreasing_by exact length_climb_lt combine (Nat.le_add_left 2 _)

/-- The siblings met on the way from the first leaf to the root, given the other leaves. -/
def branch (combine : α → α → α) (others : List α) : List α :=
  siblings combine (none :: others.map some)

/-- Combines a leaf with the siblings on its way to the root. -/
def fold (combine : α → α → α) (leaf : α) (steps : List α) : α :=
  steps.foldl combine leaf

end Merkle

end MergedMining
