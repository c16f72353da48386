import Mathlib.Algebra.Ring.Nat
import Mathlib.Data.List.Forall2
import Mathlib.Data.List.Induction

/-!
# Outcomes that are good

When a computation that may fail succeeds, so did its parts.  When steps that may be impossible were taken in a
row, each of them was possible, and what every step keeps is kept (`foldlM_induction`).  Requests that are
answered in a row make a record, and what every request keeps of it is kept (`serve_induction`).
-/

namespace MergedMining

namespace Outcome

variable {ε ε' α β : Type}

theorem bind_eq_ok {x : Except ε α} {f : α → Except ε β} {b : β} :
    x >>= f = .ok b ↔ ∃ a, x = .ok a ∧ f a = .ok b := by
  cases x <;> simp [bind, Except.bind]

theorem map_eq_ok {x : Except ε α} {f : α → β} {b : β} : x.map f = .ok b ↔ ∃ a, x = .ok a ∧ f a = b := by
  cases x <;> simp [Except.map]

theorem mapError_eq_ok {x : Except ε α} {f : ε → ε'} {a : α} : x.mapError f = .ok a ↔ x = .ok a := by
  rcases x with e | a'
  · exact ⟨nofun, nofun⟩
  · exact (Except.ok.injEq a' a).to_iff.trans (Except.ok.injEq a' a).to_iff.symm

theorem mapM_eq_ok {f : α → Except ε β} {as : List α} {bs : List β} :
    as.mapM f = .ok bs ↔ as.map f = bs.map .ok := by
  induction as generalizing bs with
  | nil => simp [pure, Except.pure, eq_comm]
  | cons a as ih =>
    rw [List.mapM_cons]
    simp only [bind_eq_ok, ih, List.map_cons]
    constructor
    · rintro ⟨b, hb, bs', hbs, h⟩
      cases h
      simp [hb, hbs]
    · intro h
      rcases bs with _ | ⟨b, bs⟩
      · simp at h
      · rw [List.map_cons, List.cons.injEq] at h
        exact ⟨b, h.1, bs, h.2, rfl⟩

theorem mapM_eq_some_iff {f : α → Option β} {as : List α} {bs : List β} :
    as.mapM f = some bs ↔ List.Forall₂ (fun a b => f a = some b) as bs := by
  induction as generalizing bs with
  | nil => simp [eq_comm]
  | cons a as ih =>
    rw [List.mapM_cons, List.forall₂_cons_left_iff]
    show ((f a).bind fun b => (as.mapM f).bind fun bs => some (b :: bs)) = some bs ↔ _
    simp only [Option.bind_eq_some_iff, ih, Option.some.injEq]
    constructor
    · rintro ⟨b, hb, bs', hbs, rfl⟩
      exact ⟨b, bs', hb, hbs, rfl⟩
    · rintro ⟨b, bs', hb, hbs, rfl⟩
      exact ⟨b, hb, bs', hbs, rfl⟩

/-! ### Steps in a row -/

variable {S E : Type} {step : S → E → Option S} {s s' : S} {e : E} {es : List E}

theorem foldlM_cons_eq_some :
    (e :: es).foldlM step s = some s' ↔ ∃ mid, step s e = some mid ∧ es.foldlM step mid = some s' := by
  rw [List.foldlM_cons]
  exact Option.bind_eq_some_iff

theorem foldlM_induction {P : S → Prop} (hstart : P s)
    (hstep : ∀ (s : S) (e : E) (s' : S), P s → step s e = some s' → P s') (h : es.foldlM step s = some s') :
    P s' := by
  induction es generalizing s with
  | nil =>
    cases h
    exact hstart
  | cons e es ih =>
    obtain ⟨mid, hmid, hrun⟩ := foldlM_cons_eq_some.1 h
    exact ih (hstep s e mid hstart hmid) hrun

/-! ### Requests in a row -/

variable {R A : Type}

/-- The record of some requests, each with its answer, the latest first, and the state that they leave. -/
def serve (handle : S → R → A × S) (s : S) (requests : List R) : List (R × A) × S :=
  requests.foldl (fun (past, s) r => ((r, (handle s r).1) :: past, (handle s r).2)) ([], s)

theorem serve_concat (handle : S → R → A × S) (s : S) (requests : List R) (r : R) :
    serve handle s (requests ++ [r]) =
      ((r, (handle (serve handle s requests).2 r).1) :: (serve handle s requests).1,
        (handle (serve handle s requests).2 r).2) := by
  rw [serve, List.foldl_append]
  rfl

theorem serve_induction {handle : S → R → A × S} {P : List (R × A) → S → Prop} (hstart : P [] s)
    (hstep : ∀ past s r, P past s → P ((r, (handle s r).1) :: past) (handle s r).2) (requests : List R) :
    P (serve handle s requests).1 (serve handle s requests).2 := by
  induction requests using List.reverseRecOn with
  | nil => exact hstart
  | append_singleton requests r ih =>
    rw [serve_concat]
    exact hstep _ _ r ih

end Outcome

end MergedMining
