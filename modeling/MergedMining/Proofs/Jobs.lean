import MergedMining.Jobs
import MergedMining.Proofs.Outcome
import MergedMining.Proofs.Recency

/-!
# The headers handed in for the jobs in use

The memory of the headers that were handed in is a window of what was asked: it reaches back to the last clean
start, and to the last time that fewer than `Jobs.seenCapacity` other headers were handed in after a header
(`isDuplicate_iff_window`).
-/

namespace MergedMining

namespace Jobs

/-! ### The memory -/

variable {j : Jobs} {hs : List Bytes}

/-- The recent part of a history of headers is remembered, given by their hashes. -/
structure Recalls (j : Jobs) (hs : List Bytes) : Prop where
  capacity : j.seen.capacity = seenCapacity
  remembers : j.seen.Remembers hs

theorem recalls_empty : empty.Recalls [] := ⟨rfl, Recency.remembers_ofCapacity _⟩

theorem Recalls.isDuplicate (h : j.Recalls hs) (hash : Bytes) :
    (j.isDuplicate hash).1 = decide (hash ∈ (Recency.recent hs).take seenCapacity) ∧
      (j.isDuplicate hash).2.Recalls (hash :: hs) := by
  have hpos : 0 < j.seen.capacity := by
    rw [h.capacity]
    decide
  obtain ⟨hfound, hremembers⟩ := Recency.touch_remembers h.remembers hpos hash
  rw [h.capacity] at hfound
  exact ⟨hfound, (Recency.capacity_touch _ _).trans h.capacity, hremembers⟩

theorem Recalls.publish (h : j.Recalls hs) (work : Work) (clean : Bool) :
    (j.publish work clean).2.Recalls (if j.ends work clean then [] else hs) := by
  have hseen : (j.publish work clean).2.seen = if j.ends work clean then j.seen.clear else j.seen := rfl
  by_cases hends : j.ends work clean = true
  · rw [if_pos hends] at hseen ⊢
    exact ⟨by rw [hseen]; exact h.capacity, by rw [hseen]; exact Recency.remembers_ofCapacity _⟩
  · rw [if_neg hends] at hseen ⊢
    exact ⟨by rw [hseen]; exact h.capacity, by rw [hseen]; exact h.remembers⟩

/-! ### Records -/

/-- What the memory is asked or told. -/
inductive Call
  | publish (work : Work) (clean : Bool)
  | isDuplicate (hash : Bytes)

/-- The answer to a call, and what it leaves. -/
def handle (j : Jobs) : Call → Bool × Jobs
  | .publish work clean => j.publish work clean
  | .isDuplicate hash => j.isDuplicate hash

/-- A call with its answer. -/
abbrev Entry := Call × Bool

/-- Whether a job ended the older ones. -/
def Entry.cleans : Entry → Bool
  | (.publish _ _, answer) => answer
  | (.isDuplicate _, _) => false

/-- The hash that was handed in. -/
def Entry.hash? : Entry → Option Bytes
  | (.publish _ _, _) => none
  | (.isDuplicate hash, _) => some hash

/-- The hashes that were handed in. -/
def hashes (entries : List Entry) : List Bytes := entries.filterMap Entry.hash?

/-- The hashes that were handed in since the last clean start, or since the beginning, in a record with the
latest first. -/
def lately (past : List Entry) : List Bytes := hashes (past.takeWhile (!·.cleans))

variable {past newer : List Entry} {hash : Bytes}

theorem lately_publish (work : Work) (clean answer : Bool) (past : List Entry) :
    lately ((.publish work clean, answer) :: past) = if answer then [] else lately past := by
  cases answer <;> rfl

theorem lately_isDuplicate (hash : Bytes) (answer : Bool) (past : List Entry) :
    lately ((.isDuplicate hash, answer) :: past) = hash :: lately past := rfl

theorem lately_append (hnewer : ∀ entry ∈ newer, entry.cleans = false) (past : List Entry) :
    lately (newer ++ past) = hashes newer ++ lately past := by
  rw [lately, List.takeWhile_append_of_pos fun entry hentry => by rw [hnewer entry hentry]; rfl, hashes,
    List.filterMap_append]
  rfl

/-- What stands in a record since the last clean start was handed in there. -/
theorem exists_of_lately {later earlier : List Bytes} (h : lately past = later ++ hash :: earlier) :
    ∃ newer answer older, past = newer ++ (.isDuplicate hash, answer) :: older ∧
      (∀ entry ∈ newer, entry.cleans = false) ∧ hashes newer = later := by
  induction past generalizing later with
  | nil => simp [lately, hashes] at h
  | cons entry past ih =>
    rcases entry with ⟨⟨work, clean⟩ | key, answer⟩
    · rw [lately_publish] at h
      cases answer with
      | true => simp at h
      | false =>
        obtain ⟨newer, answer, older, rfl, hnewer, rfl⟩ := ih h
        refine ⟨(.publish work clean, false) :: newer, answer, older, rfl, ?_, rfl⟩
        exact List.forall_mem_cons.2 ⟨rfl, hnewer⟩
    · rw [lately_isDuplicate] at h
      rcases later with _ | ⟨first, later⟩
      · obtain ⟨rfl, -⟩ := List.cons.inj h
        exact ⟨[], answer, past, rfl, fun _ hentry => absurd hentry List.not_mem_nil, rfl⟩
      · obtain ⟨rfl, hlater⟩ := List.cons.inj h
        obtain ⟨newer, answer', older, rfl, hnewer, rfl⟩ := ih hlater
        refine ⟨(.isDuplicate key, answer) :: newer, answer', older, rfl, ?_, rfl⟩
        exact List.forall_mem_cons.2 ⟨rfl, hnewer⟩

theorem Recalls.handle (h : j.Recalls (lately past)) (call : Call) :
    (j.handle call).2.Recalls (lately ((call, (j.handle call).1) :: past)) := by
  cases call with
  | publish work clean =>
    rw [lately_publish]
    exact h.publish work clean
  | isDuplicate hash => exact (h.isDuplicate hash).2

/-- After any calls the hashes that were handed in lately are remembered. -/
theorem recalls_serve (calls : List Call) :
    (Outcome.serve handle empty calls).2.Recalls (lately (Outcome.serve handle empty calls).1) := by
  have hstep : ∀ (past : List Entry) (j : Jobs) (call : Call), j.Recalls (lately past) →
      (j.handle call).2.Recalls (lately ((call, (j.handle call).1) :: past)) := fun _ _ call h => h.handle call
  exact Outcome.serve_induction recalls_empty hstep calls

/-- After any calls, a header is a duplicate exactly if it was handed in since the last clean start, and fewer
than 65536 other ones were handed in after its last time. -/
theorem isDuplicate_iff_window (calls : List Call) (hash : Bytes) :
    ((Outcome.serve handle empty calls).2.isDuplicate hash).1 = true ↔
      ∃ newer answer older, (Outcome.serve handle empty calls).1 = newer ++ (.isDuplicate hash, answer) :: older ∧
        (∀ entry ∈ newer, entry.cleans = false) ∧ hash ∉ hashes newer ∧ (hashes newer).toFinset.card < 65536 := by
  rw [((recalls_serve calls).isDuplicate hash).1, decide_eq_true_iff]
  constructor
  · intro hmem
    obtain ⟨later, earlier, hsplit, hnew⟩ :=
      List.eq_append_cons_of_mem (Recency.mem_recent.1 (List.mem_of_mem_take hmem))
    rw [hsplit, Recency.mem_take_recent_iff hnew, Recency.length_recent] at hmem
    obtain ⟨newer, answer, older, hpast, hnewer, rfl⟩ := exists_of_lately hsplit
    exact ⟨newer, answer, older, hpast, hnewer, hnew, hmem⟩
  · rintro ⟨newer, answer, older, hpast, hnewer, hnew, hfew⟩
    rw [hpast, lately_append hnewer, lately_isDuplicate, Recency.mem_take_recent_iff hnew, Recency.length_recent]
    exact hfew

end Jobs

end MergedMining
