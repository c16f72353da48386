import Mathlib.Algebra.Ring.Nat
import Mathlib.Data.Set.Basic
import Mathlib.Order.Bounds.Defs
import MergedMining.Merkle

/-!
# The branch and the whole tree

A branch is computed before the first leaf is known.  Still it leads to the root of the whole tree, for every
way to combine two nodes and every number of leaves (`root_cons`).  Behind their first nodes the levels that are
climbed are those of the whole tree (`iterate_climb`), so no pair is left out on the way, and a branch has as
many steps as it takes to halve the number of leaves down to one (`isLeast_length_branch`).
-/

namespace MergedMining

namespace Merkle

variable {α : Type} (combine : α → α → α)

/-! ### Levels -/

private theorem evened_cons_cons (a b : α) (rest : List α) :
    evened (a :: b :: rest) = a :: b :: evened rest := by
  unfold evened
  have hlen : (a :: b :: rest).length % 2 = rest.length % 2 := by
    simp only [List.length_cons]
    omega
  rw [hlen]
  split
  · rcases rest with _ | ⟨c, rest⟩
    · simp at *
    · simp [List.getLast?_cons_cons]
  · rfl

theorem level_eq_pairs_evened (nodes : List α) : level combine nodes = pairs combine (evened nodes) := by
  fun_induction level combine nodes with
  | case1 a b rest ih => rw [evened_cons_cons, pairs, ih]
  | case2 a => rfl
  | case3 => rfl

private theorem evened_map_some (nodes : List α) : evened (nodes.map some) = (evened nodes).map some := by
  unfold evened
  rw [List.length_map]
  split
  · rw [List.map_append, List.getLast?_map]
    rcases nodes.getLast? <;> rfl
  · rfl

/-- Where all nodes are known, all pairs are combined. -/
private theorem knownPairs_map_some (nodes : List α) : knownPairs combine (nodes.map some) = pairs combine nodes := by
  fun_induction pairs combine nodes with
  | case1 a b rest ih =>
    simp only [List.map_cons, knownPairs, ih]
  | case2 => rfl
  | case3 => rfl

private theorem laterNodes_known (first : Option α) (known : List α) :
    laterNodes (first :: known.map some) = (evened known.tail).map some := by
  rcases known with _ | ⟨sibling, rest⟩
  · rfl
  · rw [laterNodes, List.map_cons, evened_cons_cons, evened_map_some]
    rfl

/-- Behind the first node, a level that is climbed to is that of the tree over the nodes behind the first pair. -/
theorem climb_known (known : List α) :
    climb combine (none :: known.map some) = none :: (level combine known.tail).map some := by
  rw [climb, laterNodes_known, knownPairs_map_some, level_eq_pairs_evened]

/-- As many nodes are on the next level as there are pairs: none is left out. -/
theorem length_climb_known (known : List α) :
    (climb combine (none :: known.map some)).length = (evened (none :: known.map some)).length / 2 := by
  rw [climb_known, List.length_cons, List.length_map, length_level, List.length_tail, length_evened, List.length_cons,
    List.length_map]
  omega

/-- The levels that are climbed to are those of the whole tree, apart from their first nodes. -/
theorem iterate_climb (leaf : α) (others : List α) (k : Nat) :
    (climb combine)^[k] (none :: others.map some) =
      none :: ((level combine)^[k] (leaf :: others)).tail.map some := by
  induction k generalizing leaf others with
  | zero => rfl
  | succ k ih =>
    obtain ⟨node, hlevel⟩ : ∃ node, level combine (leaf :: others) = node :: level combine others.tail := by
      cases others with
      | nil => exact ⟨_, rfl⟩
      | cons sibling rest => exact ⟨_, rfl⟩
    rw [Function.iterate_succ_apply, Function.iterate_succ_apply, climb_known, hlevel]
    exact ih node _

/-! ### Branches -/

theorem branch_nil : branch combine [] = [] := by
  simp [branch, siblings]

theorem branch_cons (sibling : α) (rest : List α) :
    branch combine (sibling :: rest) = sibling :: branch combine (level combine rest) := by
  have hclimb := climb_known combine (sibling :: rest)
  rw [List.map_cons] at hclimb
  rw [branch, List.map_cons, siblings, hclimb]
  rfl

/-- What holds without other leaves, and of a sibling with more leaves if it holds of the level over these. -/
theorem branch_induction {motive : List α → Prop} (nil : motive [])
    (cons : ∀ sibling rest, motive (level combine rest) → motive (sibling :: rest)) (others : List α) :
    motive others :=
  match others with
  | [] => nil
  | sibling :: rest => cons sibling rest (branch_induction nil cons (level combine rest))
termination_by others.length
decreasing_by
  simp only [length_level, List.length_cons]
  omega

private theorem root_cons_cons (leaf sibling : α) (rest : List α) :
    root combine (leaf :: sibling :: rest) = root combine (combine leaf sibling :: level combine rest) := by
  rw [root, evened_cons_cons, pairs, level_eq_pairs_evened]

/-- Combining the first leaf with its branch gives the root of the tree over all leaves. -/
theorem root_cons (leaf : α) (others : List α) :
    root combine (leaf :: others) = some (fold combine leaf (branch combine others)) := by
  -- the first node of each level is the leaf combined with the steps so far
  induction others using branch_induction combine generalizing leaf with
  | nil =>
    rw [root, branch_nil]
    rfl
  | cons sibling rest ih =>
    rw [root_cons_cons, ih, branch_cons]
    rfl

theorem isLeast_length_branch (others : List α) :
    IsLeast {k | others.length + 1 ≤ 2 ^ k} (branch combine others).length := by
  induction others using branch_induction combine with
  | nil =>
    rw [branch_nil]
    exact ⟨Nat.le_refl _, fun _ _ => Nat.zero_le _⟩
  | cons sibling rest ih =>
    obtain ⟨henough, hleast⟩ := ih
    rw [Set.mem_ofPred_eq, length_level] at henough
    rw [branch_cons, List.length_cons, List.length_cons]
    refine ⟨?_, fun k hk => ?_⟩
    · rw [Set.mem_ofPred_eq, Nat.pow_succ]
      omega
    · rw [Set.mem_ofPred_eq] at hk
      cases k with
      | zero => omega
      | succ k =>
        rw [Nat.pow_succ] at hk
        have hlevel : (level combine rest).length + 1 ≤ 2 ^ k := by
          rw [length_level]
          omega
        exact Nat.succ_le_succ (hleast hlevel)

/-- One node is left after as many levels as the branch has steps, and not earlier. -/
theorem length_iterate_climb_eq_one (others : List α) (k : Nat) :
    ((climb combine)^[k] (none :: others.map some)).length = 1 ↔ (branch combine others).length ≤ k := by
  induction others using branch_induction combine generalizing k with
  | nil =>
    have hstays : climb combine [none] = [none] := rfl
    rw [List.map_nil, Function.iterate_fixed hstays, branch_nil]
    exact iff_of_true rfl (Nat.zero_le k)
  | cons sibling rest ih =>
    rw [branch_cons, List.length_cons]
    cases k with
    | zero => simp
    | succ k => rw [Function.iterate_succ_apply, climb_known, List.tail_cons, ih, Nat.succ_le_succ_iff]

/-- The branch of the first leaf is found without knowing it: combined with the leaf it gives the root of the
tree over all leaves, and it has the least number of steps for which a tree has room for all of them.  The climb
ends after just as many levels; each level on the way is that of the whole tree, with the first node unknown,
and no pair of it is left out. -/
theorem branch_leads_to_root (leaf : α) (others : List α) :
    root combine (leaf :: others) = some (fold combine leaf (branch combine others)) ∧
    IsLeast {k | others.length + 1 ≤ 2 ^ k} (branch combine others).length ∧
    (∀ k, ((climb combine)^[k] (none :: others.map some)).length = 1 ↔ (branch combine others).length ≤ k) ∧
    ∀ k, (climb combine)^[k] (none :: others.map some) =
        none :: ((level combine)^[k] (leaf :: others)).tail.map some ∧
      ((climb combine)^[k + 1] (none :: others.map some)).length =
        (evened ((climb combine)^[k] (none :: others.map some))).length / 2 := by
  refine ⟨root_cons combine leaf others, isLeast_length_branch combine others,
    length_iterate_climb_eq_one combine others, fun k => ?_⟩
  rw [Function.iterate_succ_apply', iterate_climb combine leaf]
  exact ⟨rfl, length_climb_known combine _⟩

end Merkle

end MergedMining
