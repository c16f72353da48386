import MergedMining.Extranonces

/-!
# Extranonces are issued once

A draw that was issued before is drawn again, so what is issued is new, and only a run of draws that were all
issued before ends an allocation in vain (`allocate_allocated`).  Hence no two allocations in a row of any
length issue the same bytes (`answer_ne_answer`), and what counts as issued is what the allocations before it
answered (`mem_issued_after`).
-/

namespace MergedMining

open Stratum (Extranonce)

namespace Extranonces

variable {draws : Draws} {e : Extranonces}

/-- The `k`-th of the draws that come next. -/
def upcoming (draws : Draws) (e : Extranonces) (k : Nat) : Bytes := draws (e.drawn + k) e.ownSize

/-! ### One allocation -/

/-- The outcomes of drawing: the first draw that is new, or none when none of them is. -/
inductive Drawn (draws : Draws) (tries : Nat) (e : Extranonces) : Option Bytes × Extranonces → Prop
  | found {k : Nat} (hnew : e.upcoming draws k ∉ e.issued) : Drawn draws tries e
      (some (e.upcoming draws k), { e with issued := e.upcoming draws k :: e.issued, drawn := e.drawn + k + 1 })
  | inVain (hissued : ∀ k < tries, e.upcoming draws k ∈ e.issued) :
      Drawn draws tries e (none, { e with drawn := e.drawn + tries })

private theorem draw_drawn (draws : Draws) (tries : Nat) (e : Extranonces) :
    Drawn draws tries e (draw draws tries e) := by
  induction tries generalizing e with
  | zero => exact .inVain (fun k hk => absurd hk (Nat.not_lt_zero k))
  | succ tries ih =>
    unfold draw
    dsimp only
    split
    · next hold =>
      have hold : e.upcoming draws 0 ∈ e.issued := List.contains_iff_mem.1 hold
      -- the draws after the first one are those that come next behind it
      have hshift : ∀ k, upcoming draws { e with drawn := e.drawn + 1 } k = e.upcoming draws (k + 1) := by
        intro k
        simp only [upcoming, Nat.add_assoc, Nat.add_comm 1 k]
      have hlater := ih { e with drawn := e.drawn + 1 }
      generalize draw draws tries { e with drawn := e.drawn + 1 } = result at hlater ⊢
      cases hlater with
      | @found k hnew =>
        rw [hshift] at hnew ⊢
        simp only [Nat.add_assoc, Nat.add_left_comm 1 k]
        exact .found hnew
      | inVain hissued =>
        simp only [Nat.add_assoc, Nat.add_comm 1 tries]
        refine .inVain fun k hk => ?_
        rcases k with _ | k
        · exact hold
        · rw [← hshift]
          exact hissued k (by omega)
    · next hnew => exact .found (k := 0) (fun hmem => hnew (List.contains_iff_mem.2 hmem))

/-- The outcomes of an allocation. -/
inductive Allocated (draws : Draws) (e : Extranonces) : Except StateFault Extranonce × Extranonces → Prop
  | issued {k : Nat} (hnew : e.upcoming draws k ∉ e.issued) : Allocated draws e
      (.ok ⟨e.upcoming draws k⟩, { e with issued := e.upcoming draws k :: e.issued, drawn := e.drawn + k + 1 })
  | exhausted (hissued : ∀ k < maxDraws, e.upcoming draws k ∈ e.issued) : Allocated draws e
      (.error (.extranoncesExhausted e.issued.length), { e with drawn := e.drawn + maxDraws })

theorem allocate_allocated (draws : Draws) (e : Extranonces) : Allocated draws e (e.allocate draws) := by
  have hdrawn := draw_drawn draws maxDraws e
  unfold allocate
  generalize draw draws maxDraws e = result at hdrawn ⊢
  cases hdrawn with
  | found hnew => exact .issued hnew
  | inVain hissued => exact .exhausted hissued

/-- What is issued stays issued, and the sizes stay as they are. -/
structure Grows (e e' : Extranonces) : Prop where
  ownSize : e'.ownSize = e.ownSize
  minerSize : e'.minerSize = e.minerSize
  issued : e.issued ⊆ e'.issued

theorem Grows.refl (e : Extranonces) : e.Grows e := ⟨rfl, rfl, List.Subset.refl _⟩

theorem Grows.trans {e e' e'' : Extranonces} (h : e.Grows e') (h' : e'.Grows e'') : e.Grows e'' :=
  ⟨h'.ownSize.trans h.ownSize, h'.minerSize.trans h.minerSize, List.Subset.trans h.issued h'.issued⟩

theorem allocate_grows {e' : Extranonces} {result : Except StateFault Extranonce}
    (h : e.allocate draws = (result, e')) :
    e.Grows e' := by
  have hallocated := allocate_allocated draws e
  rw [h] at hallocated
  cases hallocated with
  | issued => exact ⟨rfl, rfl, List.subset_cons_self _ _⟩
  | exhausted => exact ⟨rfl, rfl, List.Subset.refl _⟩

theorem allocate_eq_ok {e' : Extranonces} {extranonce : Extranonce} (h : e.allocate draws = (.ok extranonce, e')) :
    extranonce.bytes ∉ e.issued ∧ e'.issued = extranonce.bytes :: e.issued := by
  have hallocated := allocate_allocated draws e
  rw [h] at hallocated
  cases hallocated with
  | issued hnew => exact ⟨hnew, rfl⟩

theorem allocate_length (hdraws : ∀ k size, (draws k size).length = size) {e' : Extranonces} {extranonce : Extranonce}
    (h : e.allocate draws = (.ok extranonce, e')) : extranonce.bytes.length = e.ownSize := by
  have hallocated := allocate_allocated draws e
  rw [h] at hallocated
  cases hallocated with
  | issued => exact hdraws _ _

/-! ### Allocations in a row -/

/-- What is issued and drawn after a number of allocations. -/
def after (draws : Draws) (e : Extranonces) : Nat → Extranonces
  | 0 => e
  | n + 1 => ((after draws e n).allocate draws).2

/-- What the `n`-th allocation answers, counted from zero. -/
def answer (draws : Draws) (e : Extranonces) (n : Nat) : Except StateFault Extranonce :=
  ((e.after draws n).allocate draws).1

theorem allocate_after (draws : Draws) (e : Extranonces) (n : Nat) :
    (e.after draws n).allocate draws = (e.answer draws n, e.after draws (n + 1)) := by
  rw [answer, after, Prod.eta]

theorem ownSize_after (draws : Draws) (e : Extranonces) (n : Nat) : (e.after draws n).ownSize = e.ownSize := by
  induction n with
  | zero => rfl
  | succ n ih => exact (allocate_grows (allocate_after draws e n)).ownSize.trans ih

/-- What is issued after some allocations was issued before them, or is what one of them answered. -/
theorem mem_issued_after {bytes : Bytes} {n : Nat} :
    bytes ∈ (e.after draws n).issued ↔ bytes ∈ e.issued ∨ ∃ i < n, e.answer draws i = .ok ⟨bytes⟩ := by
  induction n with
  | zero => simp [after]
  | succ n ih =>
    have hallocated := allocate_allocated draws (e.after draws n)
    rw [allocate_after] at hallocated
    generalize hanswer : e.answer draws n = answer at hallocated
    generalize hafter : e.after draws (n + 1) = next at hallocated ⊢
    cases hallocated with
    | issued =>
      simp only [List.mem_cons, ih, Nat.lt_succ_iff_lt_or_eq, or_and_right, exists_or, exists_eq_left, hanswer,
        Except.ok.injEq, Extranonce.mk.injEq, eq_comm (a := bytes)]
      exact or_comm.trans or_assoc
    | exhausted =>
      simp only [ih, Nat.lt_succ_iff_lt_or_eq, or_and_right, exists_or, exists_eq_left, hanswer, reduceCtorEq,
        or_false]

/-- Two allocations never issue the same bytes. -/
theorem answer_ne_answer {i j : Nat} (hij : i < j) {x y : Extranonce} (hi : e.answer draws i = .ok x)
    (hj : e.answer draws j = .ok y) : x ≠ y := by
  have hissued : x.bytes ∈ (e.after draws j).issued := mem_issued_after.2 (.inr ⟨i, hij, hi⟩)
  have hnew := (allocate_eq_ok ((allocate_after draws e j).trans (by rw [hj]))).1
  rintro rfl
  exact hnew hissued

/-- An allocation is in vain only when every draw of it was issued before, and then issues nothing. -/
theorem issued_of_answer_error {n : Nat} {fault : StateFault} (h : e.answer draws n = .error fault) :
    (∀ k < maxDraws, (e.after draws n).upcoming draws k ∈ (e.after draws n).issued) ∧
      (e.after draws (n + 1)).issued = (e.after draws n).issued := by
  have hallocated := allocate_allocated draws (e.after draws n)
  rw [allocate_after, h] at hallocated
  generalize e.after draws (n + 1) = next at hallocated ⊢
  cases hallocated with
  | exhausted hissued => exact ⟨hissued, rfl⟩

end Extranonces

end MergedMining
