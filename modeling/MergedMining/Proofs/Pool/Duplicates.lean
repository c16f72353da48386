import MergedMining.Proofs.Jobs
import MergedMining.Proofs.Pool.Steady

/-!
# Work that is counted once

A header that was counted is counted again only after a refresh that made a clean start, or after as many other
headers were handed in as the pool remembers (`credits_again`).  Without a clean start a pool remembers the
recent part of what was handed in (`Recalls.run`).
-/

namespace MergedMining

theorem Jobs.nextId_isDuplicate (j : Jobs) (key : Bytes) : (j.isDuplicate key).2.nextId = j.nextId := by
  unfold Jobs.isDuplicate
  rcases j.seen.touch key with ⟨_, _⟩
  rfl

namespace Traffic

variable {σ : Type} [Store σ] {t : Traffic σ} {e : Traffic.Event} {header : Bytes} {hs : List Bytes}

/-! ### Events -/

/-- A share for a header is put among those that wait to be stored. -/
def Credits (t : Traffic σ) (e : Event) (header : Bytes) : Prop :=
  t.handedIn? e = some header ∧ ∃ share, (t.step e).pool.shares.waiting = t.pool.shares.waiting ++ [share]

/-- A refresh makes a clean start: it was asked to, or its job is for another height than the current one. -/
def Renews (t : Traffic σ) (e : Event) : Prop :=
  ∃ clean work q, e = .refresh clean ∧ t.pool.refresh clean = (.ok work, q) ∧
    (clean = true ∨ ∃ current, t.pool.jobs.current = some current ∧ current.height ≠ work.height)

/-- The headers handed in at some events, in order. -/
def handedBy (t : Traffic σ) : List Event → List Bytes
  | [] => []
  | e :: es => (t.handedIn? e).toList ++ handedBy (t.step e) es

/-- Every share that is put among the waiting ones is for a header. -/
theorem exists_credits {share : Share} (h : (t.step e).pool.shares.waiting = t.pool.shares.waiting ++ [share]) :
    ∃ header, t.Credits e header := by
  rcases (t.step_stepped e).waiting with hsame | ⟨-, hnone⟩ | ⟨_, _, header, _, -, hearns⟩
  · rw [h] at hsame
    simp at hsame
  · rw [h] at hnone
    simp at hnone
  · exact ⟨header, hearns.handedIn?, share, h⟩

theorem Credits.new (h : t.Credits e header) : (t.pool.jobs.isDuplicate (sha256d header)).1 = false := by
  obtain ⟨hhanded, share, hshare⟩ := h
  rcases (t.step_stepped e).waiting with hsame | ⟨-, hnone⟩ | ⟨_, _, _, _, -, hearns⟩
  · rw [hshare] at hsame
    simp at hsame
  · rw [hshare] at hnone
    simp at hnone
  · have hhanded' := hearns.handedIn?
    rw [hhanded] at hhanded'
    cases hhanded'
    exact hearns.new

/-! ### The memory of a pool -/

/-- A pool remembers the recent part of a history of headers, given by their hashes. -/
structure Recalls (t : Traffic σ) (hs : List Bytes) : Prop where
  capacity : t.pool.jobs.seen.capacity = Jobs.seenCapacity
  remembers : t.pool.jobs.seen.Remembers hs

omit [Store σ] in
theorem isDuplicate_recalls (h : t.Recalls hs) (header : Bytes) :
    (t.pool.jobs.isDuplicate header).1 = decide (header ∈ (Recency.recent hs).take Jobs.seenCapacity) ∧
      (t.pool.jobs.isDuplicate header).2.seen.capacity = Jobs.seenCapacity ∧
      (t.pool.jobs.isDuplicate header).2.seen.Remembers (header :: hs) := by
  have hjobs : t.pool.jobs.Recalls hs := ⟨h.capacity, h.remembers⟩
  obtain ⟨hfound, hlater⟩ := hjobs.isDuplicate header
  exact ⟨hfound, hlater.capacity, hlater.remembers⟩

omit [Store σ] in
theorem publish_recalls (h : t.Recalls hs) (work : Work) (clean : Bool) :
    (t.pool.jobs.takeId.2.publish work clean).2.seen.capacity = Jobs.seenCapacity ∧
      (t.pool.jobs.takeId.2.publish work clean).2.seen.Remembers
        (if t.pool.jobs.ends work clean then [] else hs) := by
  have hjobs : t.pool.jobs.takeId.2.Recalls hs := ⟨h.capacity, h.remembers⟩
  have hlater := hjobs.publish work clean
  exact ⟨hlater.capacity, hlater.remembers⟩

/-- An event that makes no clean start adds to the history what was handed in. -/
theorem Recalls.step (h : t.Recalls hs) (hcurrent : t.pool.jobs.current.isSome) (hkeeps : ¬ t.Renews e) :
    (t.step e).Recalls ((t.handedIn? e).toList.map sha256d ++ hs) ∧ (t.step e).pool.jobs.current.isSome := by
  rcases (t.step_stepped e).jobs with ⟨clean, work, q, rfl, hrefresh, hjobs⟩ | ⟨-, hnone, hjobs⟩ | hjobs
  · obtain ⟨current, hcurrent⟩ := Option.isSome_iff_exists.1 hcurrent
    -- the job is one more for the height of the current one
    have hends : t.pool.jobs.ends work clean = false := by
      refine Bool.eq_false_iff.2 fun hends => hkeeps ⟨clean, work, q, rfl, hrefresh, ?_⟩
      simpa [Jobs.ends, hcurrent] using hends
    obtain ⟨hcapacity, hremembers⟩ := publish_recalls h work clean
    rw [hends, ← hjobs] at hremembers
    rw [← hjobs] at hcapacity
    exact ⟨⟨hcapacity, hremembers⟩, by rw [hjobs]; rfl⟩
  · rw [hnone]
    exact ⟨⟨by rw [hjobs]; exact h.capacity, by rw [hjobs]; exact h.remembers⟩, by rw [hjobs]; exact hcurrent⟩
  · rcases hhanded : t.handedIn? e with _ | header
    · rw [hhanded] at hjobs
      exact ⟨⟨by rw [hjobs]; exact h.capacity, by rw [hjobs]; exact h.remembers⟩, by rw [hjobs]; exact hcurrent⟩
    · rw [hhanded] at hjobs
      obtain ⟨-, hcapacity, hremembers⟩ := isDuplicate_recalls h (sha256d header)
      exact ⟨⟨by rw [hjobs]; exact hcapacity, by rw [hjobs]; exact hremembers⟩, by rw [hjobs]; exact hcurrent⟩

/-- Events that make no clean start add to the history what was handed in at them. -/
theorem Recalls.run (h : t.Recalls hs) (hcurrent : t.pool.jobs.current.isSome) (es : List Event)
    (hkeeps : ∀ front e back, es = front ++ e :: back → ¬ (t.run front).Renews e) :
    (t.run es).Recalls ((t.handedBy es).reverse.map sha256d ++ hs) := by
  induction es generalizing t hs with
  | nil => exact h
  | cons e es ih =>
    obtain ⟨hstep, hcurrent⟩ := h.step hcurrent (hkeeps [] e es rfl)
    have hlater := ih hstep hcurrent fun front e' back hes => hkeeps (e :: front) e' back (by rw [hes]; rfl)
    -- at most one header is handed in at an event
    have hrev : (t.handedIn? e).toList.reverse = (t.handedIn? e).toList := by
      rcases t.handedIn? e with _ | header <;> rfl
    rw [run_cons, handedBy, List.reverse_append, List.map_append, List.append_assoc, hrev]
    exact hlater

/-- What holds of every run: the pool remembers the recent part of some history, and has a current job if any. -/
structure Remembering (t : Traffic σ) : Prop where
  recalls : ∃ hs, t.Recalls hs
  current : t.pool.jobs.valid ≠ [] → t.pool.jobs.current.isSome

private theorem remembering_step {t' : Traffic σ} (h : t.Remembering) (hstep : t.Stepped e t') : t'.Remembering := by
  obtain ⟨⟨hs, hrecalls⟩, hcurrent⟩ := h
  rcases hstep.jobs with ⟨clean, work, q, -, -, hjobs⟩ | ⟨-, -, hjobs⟩ | hjobs
  · obtain ⟨hcapacity, hremembers⟩ := publish_recalls hrecalls work clean
    rw [← hjobs] at hcapacity hremembers
    exact ⟨⟨_, hcapacity, hremembers⟩, fun _ => by rw [hjobs]; rfl⟩
  · refine ⟨⟨hs, by rw [hjobs]; exact hrecalls.capacity, by rw [hjobs]; exact hrecalls.remembers⟩, ?_⟩
    rw [hjobs]
    exact hcurrent
  · rcases hhanded : t.handedIn? e with _ | header
    · rw [hhanded] at hjobs
      refine ⟨⟨hs, by rw [hjobs]; exact hrecalls.capacity, by rw [hjobs]; exact hrecalls.remembers⟩, ?_⟩
      rw [hjobs]
      exact hcurrent
    · rw [hhanded] at hjobs
      obtain ⟨-, hcapacity, hremembers⟩ := isDuplicate_recalls hrecalls (sha256d header)
      refine ⟨⟨_, by rw [hjobs]; exact hcapacity, by rw [hjobs]; exact hremembers⟩, ?_⟩
      rw [hjobs]
      exact hcurrent

omit [Store σ] in
theorem recalls_ofPool {p : Pool σ} (hfresh : p.IsFresh) : (ofPool p).Recalls [] := by
  constructor
  · show p.jobs.seen.capacity = _
    rw [hfresh.jobs]
    rfl
  · show p.jobs.seen.Remembers _
    rw [hfresh.jobs]
    exact Recency.remembers_ofCapacity _

theorem remembering_run {p : Pool σ} (hfresh : p.IsFresh) (es : List Event) : ((ofPool p).run es).Remembering := by
  refine run_induction ?_ (fun _ _ _ h hstep => remembering_step h hstep) es
  refine ⟨⟨[], recalls_ofPool hfresh⟩, fun hvalid => absurd ?_ hvalid⟩
  show p.jobs.valid = []
  rw [hfresh.jobs]
  rfl

/-! ### Counting twice -/

omit [Store σ] in
theorem valid_of_handedIn? (h : t.handedIn? e = some header) : t.pool.jobs.valid ≠ [] := by
  intro hvalid
  have hget : ∀ id, t.pool.jobs.get? id = none := by
    intro id
    rw [Jobs.get?, hvalid]
    rfl
  have hpool : ∀ stage params, t.pool.handedIn? stage params = none := by
    intro stage params
    unfold Pool.handedIn?
    split
    · simp only [hget]
    · rfl
  unfold handedIn? at h
  split at h
  · split at h
    · split at h
      · rw [hpool] at h
        cases h
      · cases h
    · cases h
  · cases h

private theorem exists_preimages {f : Bytes → Bytes} {l hashes : List Bytes} (h : ∀ hash ∈ hashes, hash ∈ l.map f) :
    ∃ xs : List Bytes, xs.map f = hashes ∧ ∀ x ∈ xs, x ∈ l := by
  induction hashes with
  | nil => exact ⟨[], rfl, by simp⟩
  | cons hash hashes ih =>
    obtain ⟨x, hx, rfl⟩ := List.mem_map.1 (h hash List.mem_cons_self)
    obtain ⟨xs, rfl, hxs⟩ := ih fun hash hhash => h hash (List.mem_cons_of_mem _ hhash)
    refine ⟨x :: xs, rfl, fun y hy => ?_⟩
    rcases List.mem_cons.1 hy with rfl | hy
    · exact hx
    · exact hxs y hy

/-- Without a clean start a pool remembers a header behind what is handed in after it. -/
theorem recalls_behind {p : Pool σ} (hfresh : p.IsFresh) (before between : List Event) {first : Event}
    (hfirst : ((ofPool p).run before).handedIn? first = some header)
    (hkeeps : ∀ front e back, between = front ++ e :: back →
      ¬ ((((ofPool p).run before).step first).run front).Renews e) :
    ∃ hs, ((((ofPool p).run before).step first).run between).Recalls
      (((((ofPool p).run before).step first).handedBy between).reverse.map sha256d ++ sha256d header :: hs) := by
  obtain ⟨⟨hs, hrecalls⟩, hcurrent⟩ := remembering_run hfresh before
  generalize (ofPool p).run before = t at *
  have hquiet : ¬ t.Renews first := by
    rintro ⟨clean, _, _, rfl, -, -⟩
    cases hfirst
  obtain ⟨hstep, hcurrent⟩ := hrecalls.step (hcurrent (valid_of_handedIn? hfirst)) hquiet
  rw [hfirst] at hstep
  exact ⟨hs, hstep.run hcurrent between hkeeps⟩

/-- In the pool of the sample one header is counted under two jobs, with a clean refresh for the same block
between. -/
private theorem exists_credits_sample : ∃ header,
    ((ofPool samplePool).run sampleStart).Credits (.line 0 0 (sampleLine "00000000")) header ∧
      ((((ofPool samplePool).run sampleStart).step (.line 0 0 (sampleLine "00000000"))).run
        [.refresh true]).Credits (.line 0 0 (sampleLine "00000001")) header := by
  obtain ⟨work, notify, hwork⟩ := exists_sampleWork
  obtain ⟨block, hmade⟩ := Block.exists_sampleBlock (Work.template_eq (Work.build_eq_ok.1 hwork))
    ([7, 7, 7, 7] ++ [0, 0, 0, 0]) ⟨0⟩ ⟨0x6553f101⟩
  obtain ⟨header, hheader⟩ := Block.exists_header hmade
  obtain ⟨hstart, hnextId, hjob, hnew⟩ := isSample_start hwork
  generalize (ofPool samplePool).run sampleStart = t at *
  obtain ⟨hsubmitted, hhanded, hshare, hjobs⟩ := hstart.submit hwork hmade hheader reads_zero hjob (hnew _)
  obtain ⟨hagain, -, hjob', hnew'⟩ := hsubmitted.refresh hwork
  have hsecondId : (t.step (.line 0 0 (sampleLine "00000000"))).pool.jobs.nextId = ⟨1⟩ := by
    rw [hjobs, Jobs.nextId_isDuplicate, hnextId]
  rw [hsecondId] at hjob'
  obtain ⟨-, hhanded', hshare', -⟩ := hagain.submit hwork hmade hheader reads_one hjob' (hnew' _)
  refine ⟨header, ⟨hhanded, hshare⟩, ?_⟩
  rw [run_cons]
  exact ⟨hhanded', hshare'⟩

/-- Between two shares for one header the pool made a clean start, or was handed in as many other headers as it
remembers. -/
theorem credits_again {p : Pool σ} (hfresh : p.IsFresh) (before between : List Event) {first second : Event}
    (hfirst : ((ofPool p).run before).Credits first header)
    (hsecond : ((((ofPool p).run before).step first).run between).Credits second header) :
    (∃ front e back, between = front ++ e :: back ∧ ((((ofPool p).run before).step first).run front).Renews e) ∨
      ∃ others : List Bytes, others.Nodup ∧ others.length = Jobs.seenCapacity ∧
        ∀ other ∈ others, other ≠ header ∧ other ∈ (((ofPool p).run before).step first).handedBy between := by
  by_cases hrenewed : ∃ front e back, between = front ++ e :: back ∧
      ((((ofPool p).run before).step first).run front).Renews e
  · exact .inl hrenewed
  right
  obtain ⟨hs, hlater⟩ := recalls_behind hfresh before between hfirst.1 fun front e back hes hr =>
    hrenewed ⟨front, e, back, hes, hr⟩
  -- the second share was counted, so the first header had been pushed out
  have hforgotten := hsecond.new
  rw [(isDuplicate_recalls hlater _).1, decide_eq_false_iff_not] at hforgotten
  obtain ⟨hashes, hnodup, hlen, hhashes⟩ := Recency.exists_others_of_not_mem hforgotten
  -- different hashes are those of different headers
  obtain ⟨others, rfl, hothers⟩ := exists_preimages fun hash hhash => (hhashes hash hhash).1
  have hdistinct : others.Nodup := List.Pairwise.of_map sha256d (fun _ _ hne heq => hne (congrArg sha256d heq)) hnodup
  refine ⟨others, hdistinct, by simpa using hlen, fun other hother => ⟨?_, by simpa using hothers other hother⟩⟩
  rintro rfl
  exact (hhashes _ (List.mem_map_of_mem hother)).2 rfl

theorem credits_again_sample : ∃ header,
    ((ofPool samplePool).run sampleStart).Credits (.line 0 0 (sampleLine "00000000")) header ∧
      ((((ofPool samplePool).run sampleStart).step (.line 0 0 (sampleLine "00000000"))).run
        [.refresh true]).Credits (.line 0 0 (sampleLine "00000001")) header ∧
      ((∃ front e back, [Event.refresh true] = front ++ e :: back ∧
        ((((ofPool samplePool).run sampleStart).step (.line 0 0 (sampleLine "00000000"))).run
          front).Renews e) ∨
      ∃ others : List Bytes, others.Nodup ∧ others.length = Jobs.seenCapacity ∧ ∀ other ∈ others, other ≠ header ∧
        other ∈ (((ofPool samplePool).run sampleStart).step
          (.line 0 0 (sampleLine "00000000"))).handedBy [.refresh true]) := by
  obtain ⟨header, hfirst, hsecond⟩ := exists_credits_sample
  exact ⟨header, hfirst, hsecond, credits_again samplePool_isFresh _ _ hfirst hsecond⟩

/-- A clean refresh lets a header be counted again, also when all jobs are for one height. -/
theorem not_credits_once :
    ¬ ∀ (σ : Type) [Store σ] (p : Pool σ) (before between : List Event) (first second : Event) (header : Bytes)
      (height : UInt64), p.IsFresh →
      (∀ front clean back work q, before ++ first :: between = front ++ .refresh clean :: back →
        ((ofPool p).run front).pool.refresh clean = (.ok work, q) → work.height = height) →
      ((ofPool p).run before).Credits first header →
      ¬ ((((ofPool p).run before).step first).run between).Credits second header := by
  intro honce
  obtain ⟨header, hfirst, hsecond⟩ := exists_credits_sample
  refine honce Ledger samplePool _ _ _ _ header sampleTemplate.height samplePool_isFresh ?_ hfirst hsecond
  intro front clean back work q _ hrefresh
  obtain ⟨hoffers, hothers⟩ := offers_of_ground (ground_run (ofPool samplePool) front)
  rw [Work.height, Pool.template_of_offers hoffers hothers hrefresh]

/-- As many other headers as the pool remembers make it forget one, when no two of them have the same hash. -/
theorem not_isDuplicate_of_others {p : Pool σ} (hfresh : p.IsFresh) (before between : List Event) {first : Event}
    (hfirst : ((ofPool p).run before).Credits first header)
    (hkeeps : ∀ front e back, between = front ++ e :: back →
      ¬ ((((ofPool p).run before).step first).run front).Renews e)
    (hdistinct : (((((ofPool p).run before).step first).handedBy between).map sha256d).Nodup)
    (hothers : sha256d header ∉ ((((ofPool p).run before).step first).handedBy between).map sha256d)
    (hmany : Jobs.seenCapacity ≤ ((((ofPool p).run before).step first).handedBy between).length) :
    (((((ofPool p).run before).step first).run between).pool.jobs.isDuplicate (sha256d header)).1 = false := by
  obtain ⟨hs, hlater⟩ := recalls_behind hfresh before between hfirst.1 hkeeps
  have hreversed := List.pairwise_reverse.2 (hdistinct.imp Ne.symm)
  rw [(isDuplicate_recalls hlater _).1, decide_eq_false_iff_not, List.map_reverse,
    Recency.mem_take_recent_iff (by simpa using hothers), Recency.recent_of_nodup hreversed]
  simpa using hmany

end Traffic

end MergedMining
