import MergedMining.Proofs.Pool.Steady
import MergedMining.Proofs.Registry
import MergedMining.Proofs.Work.Requirements

/-!
# What miners are told of earlier jobs

With a new job goes the word whether earlier jobs still count.  The current job counts, every job that counts is
for the height of the current one, and no job id is given twice (`inUse_run`).  So what is told is what holds: a
job that comes without a clean start leaves every earlier one in use, and one that comes with it leaves none
(`settled_of_refresh`).
-/

namespace MergedMining

open Stratum (JobId Notify)

theorem Stratum.JobId.toNat_next {id : JobId} (h : id.number.toNat + 1 < 2 ^ 64) :
    id.next.number.toNat = id.number.toNat + 1 := by
  have hsum : (id.number + 1).toNat = (id.number.toNat + 1) % 2 ^ 64 := UInt64.toNat_add id.number 1
  rw [JobId.next, hsum, Nat.mod_eq_of_lt h]

/-! ### Jobs in use -/

namespace Jobs

variable {j j' : Jobs} {work : Work} {clean : Bool} {published : List Work} {taken : Nat}

/-- The jobs after the given ones were published, with at most `taken` ids used up. -/
structure InUse (j : Jobs) (published : List Work) (taken : Nat) : Prop where
  counted : j.nextId.number.toNat ≤ taken
  below : ∀ other ∈ published, other.jobId.number.toNat < j.nextId.number.toNat
  distinct : (published.map (·.jobId)).Nodup
  valid : ∀ id other, j.get? id = some other → other ∈ published ∧ other.jobId = id
  current : ∀ current, j.current = some current → j.get? current.jobId = some current ∧
    ∀ id other, j.get? id = some other → other.height = current.height

theorem inUse_empty : empty.InUse [] 0 :=
  ⟨Nat.le_refl 0, nofun, List.nodup_nil, nofun, nofun⟩

theorem InUse.of_same (h : j.InUse published taken) (hcurrent : j'.current = j.current) (hvalid : j'.valid = j.valid)
    (hid : j'.nextId = j.nextId) : j'.InUse published taken := by
  have hget : j'.get? = j.get? := by
    funext id
    rw [get?, get?, hvalid]
  refine ⟨?_, ?_, h.distinct, ?_, ?_⟩
  · rw [hid]
    exact h.counted
  · rw [hid]
    exact h.below
  · rw [hget]
    exact h.valid
  · rw [hget, hcurrent]
    exact h.current

private theorem toNat_takeId (h : j.InUse published taken) (hfew : taken + 1 < 2 ^ 64) :
    j.takeId.2.nextId.number.toNat = j.nextId.number.toNat + 1 := by
  have hcounted := h.counted
  exact JobId.toNat_next (by omega)

theorem InUse.takeId (h : j.InUse published taken) (hfew : taken + 1 < 2 ^ 64) :
    j.takeId.2.InUse published (taken + 1) := by
  have hnext := toNat_takeId h hfew
  have hcounted := h.counted
  refine ⟨by omega, fun other hother => ?_, h.distinct, h.valid, h.current⟩
  have hbelow := h.below other hother
  omega

/-- A job that was just published counts, and of the earlier ones all do or none. -/
theorem get?_publish (j : Jobs) (work : Work) (clean : Bool) (id : JobId) :
    (j.publish work clean).2.get? id =
      if id = work.jobId then some work else if (j.publish work clean).1 then none else j.get? id := by
  show List.lookup id ((work.jobId, work) :: if j.ends work clean then [] else j.valid.filter (·.1 ≠ work.jobId)) =
    if id = work.jobId then some work else if j.ends work clean then none else j.valid.lookup id
  by_cases hid : id = work.jobId
  · rw [if_pos hid, hid, List.lookup_cons_self]
  · have hne : (id == work.jobId) = false := beq_false_of_ne hid
    rw [if_neg hid, List.lookup_cons, hne]
    by_cases hends : j.ends work clean = true
    · rw [if_pos hends, if_pos hends]
      rfl
    · rw [if_neg hends, if_neg hends]
      exact lookup_filter_of_ne hid j.valid

/-- A job ends the earlier ones exactly if it was asked to, or if there is no current job of its height. -/
theorem publish_eq_false_iff : (j.publish work clean).1 = false ↔
    clean = false ∧ ∃ current, j.current = some current ∧ current.height = work.height := by
  show (clean || j.current.all fun current => current.height ≠ work.height) = false ↔ _
  rcases j.current with _ | current
  · simp
  · simp

/-- The ids of all earlier jobs are smaller than the next one. -/
theorem InUse.jobId_ne (h : j.InUse published taken) (hid : work.jobId = j.nextId) {other : Work}
    (hother : other ∈ published) : other.jobId ≠ work.jobId := by
  intro heq
  have hbelow := h.below other hother
  rw [heq, hid] at hbelow
  omega

theorem InUse.publish (h : j.InUse published taken) (hfew : taken + 1 < 2 ^ 64) (hid : work.jobId = j.nextId) :
    (j.takeId.2.publish work clean).2.InUse (published ++ [work]) (taken + 1) := by
  have hnext := toNat_takeId h hfew
  have htake := h.takeId hfew
  refine ⟨htake.counted, fun other hother => ?_, ?_, fun id other hget => ?_, fun current hcurrent => ?_⟩
  · rcases List.mem_append.1 hother with hother | hother
    · exact htake.below other hother
    · rw [List.mem_singleton.1 hother, hid]
      show _ < j.takeId.2.nextId.number.toNat
      omega
  · rw [List.map_append, List.map_singleton, List.nodup_append]
    refine ⟨h.distinct, List.pairwise_singleton _ _, fun id hmem id' hmem' => ?_⟩
    obtain ⟨other, hother, rfl⟩ := List.mem_map.1 hmem
    rw [List.mem_singleton.1 hmem']
    exact h.jobId_ne hid hother
  · rw [get?_publish] at hget
    split at hget
    · next heq =>
      cases hget
      exact ⟨List.mem_append_right _ (List.mem_singleton.2 rfl), heq.symm⟩
    · split at hget
      · cases hget
      · obtain ⟨hmem, heq⟩ := h.valid id other hget
        exact ⟨List.mem_append_left _ hmem, heq⟩
  · have hcurrent' : some work = some current := hcurrent
    cases hcurrent'
    refine ⟨by rw [get?_publish, if_pos rfl], fun id other hget => ?_⟩
    rw [get?_publish] at hget
    split at hget
    · cases hget
      rfl
    · split at hget
      · cases hget
      · next hkeeps =>
        -- the earlier jobs were kept, so the current one was for the same height
        obtain ⟨-, earlier, hearlier, hheight⟩ := publish_eq_false_iff.1 (Bool.eq_false_iff.2 hkeeps)
        rw [(h.current earlier hearlier).2 id other hget, hheight]

private theorem InUse.get?_publish_kept (h : j.InUse published taken) (hid : work.jobId = j.nextId)
    (hkeeps : (j.takeId.2.publish work clean).1 = false) {id : JobId} {other : Work} (hget : j.get? id = some other) :
    (j.takeId.2.publish work clean).2.get? id = some other := by
  obtain ⟨hmem, rfl⟩ := h.valid id other hget
  rw [get?_publish, if_neg (h.jobId_ne hid hmem), hkeeps]
  exact hget

/-- No earlier job is ended exactly if all of them still count and there is a current one of the same height. -/
theorem InUse.publish_keeps_iff (h : j.InUse published taken) (hid : work.jobId = j.nextId) :
    (j.takeId.2.publish work clean).1 = false ↔
      (∀ id other, j.get? id = some other → (j.takeId.2.publish work clean).2.get? id = some other) ∧
        ∃ current, j.current = some current ∧ current.height = work.height := by
  constructor
  · intro hkeeps
    exact ⟨fun id other => h.get?_publish_kept hid hkeeps, (publish_eq_false_iff.1 hkeeps).2⟩
  · rintro ⟨hkeeps, current, hcurrent, -⟩
    have hvalid := (h.current current hcurrent).1
    have hstill := hkeeps current.jobId current hvalid
    have hmem := (h.valid current.jobId current hvalid).1
    rw [get?_publish, if_neg (h.jobId_ne hid hmem)] at hstill
    split at hstill
    · cases hstill
    · next hends => exact Bool.eq_false_iff.2 hends

/-- The earlier jobs are ended exactly if none of them counts any more. -/
theorem InUse.publish_ends_iff (h : j.InUse published taken) (hid : work.jobId = j.nextId) :
    (j.takeId.2.publish work clean).1 = true ↔
      ∀ other ∈ published, (j.takeId.2.publish work clean).2.get? other.jobId = none := by
  constructor
  · intro hends other hother
    rw [get?_publish, if_neg (h.jobId_ne hid hother), if_pos hends]
  · intro hnone
    by_contra hkeeps
    have hkeeps' := Bool.eq_false_iff.2 hkeeps
    -- a job that ends no other has a current one before it, which still counts
    obtain ⟨-, current, hcurrent, -⟩ := publish_eq_false_iff.1 hkeeps'
    have hvalid := (h.current current hcurrent).1
    have hstill := h.get?_publish_kept hid hkeeps' hvalid
    rw [hnone current (h.valid current.jobId current hvalid).1] at hstill
    cases hstill

end Jobs

/-! ### A refresh -/

namespace Pool

variable {σ : Type} {p q : Pool σ} {clean : Bool} {outcome : Except Failure Work}

/-- The jobs in use and the headers handed in are as before, and nobody was told anything. -/
structure Undisturbed (p q : Pool σ) : Prop where
  current : q.jobs.current = p.jobs.current
  valid : q.jobs.valid = p.jobs.valid
  seen : q.jobs.seen = p.jobs.seen
  registry : q.registry = p.registry

/-- A job was published, and told to all with the word whether those published `earlier` still count. -/
structure Announced (p q : Pool σ) (earlier : List Work) (work : Work) : Prop where
  current : q.jobs.current = some work
  valid : q.jobs.get? work.jobId = some work
  height : ∀ id other, q.jobs.get? id = some other → other.height = work.height
  told : ∃ notify : Notify, work.notify notify.clean = .ok notify ∧
    q.registry = (p.registry.broadcast (notification notify)).2 ∧
    (notify.clean = false ↔ (∀ id other, p.jobs.get? id = some other → q.jobs.get? id = some other) ∧
      ∃ current, p.jobs.current = some current ∧ current.height = work.height) ∧
    (notify.clean = true ↔ ∀ other ∈ earlier, q.jobs.get? other.jobId = none)

/-- What a refresh comes to, after the given jobs were published. -/
def Settled (p q : Pool σ) (earlier : List Work) : Except Failure Work → Prop
  | .error _ => p.Undisturbed q
  | .ok work => p.Announced q earlier work

private theorem announced_of_publish {earlier : List Work} {taken : Nat} {work : Work} {notify : Notify}
    {template : BlockTemplate} {aux : Option AuxBlock} (h : p.jobs.InUse earlier taken) (hfew : taken + 1 < 2 ^ 64)
    (hq : p.Outward q) (hbuilt : p.buildWork template aux p.jobs.nextId = .ok (work, notify)) :
    p.Announced ((q.takingId.publishing work clean).announce
      (notify.withClean (q.takingId.jobs.publish work clean).1)) earlier work := by
  have hid : work.jobId = p.jobs.nextId := (Work.kept_of_build hbuilt).2.2
  have hjobs : q.takingId.jobs = p.jobs.takeId.2 := by rw [takingId, hq.jobs]
  have hregistry : q.registry = p.registry := by
    obtain ⟨_, _, _, _, rfl, -, -⟩ := hq
    rfl
  have huse : (p.jobs.takeId.2.publish work clean).2.InUse (earlier ++ [work]) (taken + 1) := h.publish hfew hid
  have hcurrent := huse.current work rfl
  rw [hjobs]
  have hafter : ((q.takingId.publishing work clean).announce
      (notify.withClean (p.jobs.takeId.2.publish work clean).1)).jobs = (p.jobs.takeId.2.publish work clean).2 := by
    show (q.takingId.jobs.publish work clean).2 = _
    rw [hjobs]
  refine ⟨by rw [hafter]; rfl, by rw [hafter]; exact hcurrent.1, by rw [hafter]; exact hcurrent.2,
    notify.withClean (p.jobs.takeId.2.publish work clean).1, ?_, ?_, ?_, ?_⟩
  · obtain ⟨_, _, _, _, -, -, -, -, -, hnotify⟩ := Work.ofTemplate_eq_ok.1 (Work.build_eq_ok.1 hbuilt)
    obtain ⟨htime, rfl⟩ := Work.notify_eq_ok.1 hnotify
    exact Work.notify_eq_ok.2 ⟨htime, rfl⟩
  · show (q.registry.broadcast _).2 = _
    rw [hregistry]
  · rw [hafter]
    exact h.publish_keeps_iff hid
  · rw [hafter]
    exact h.publish_ends_iff hid

theorem settled_of_inUse {earlier : List Work} {taken : Nat} (h : p.jobs.InUse earlier taken)
    (hfew : taken + 1 < 2 ^ 64) (hrefresh : p.refresh clean = (outcome, q)) : p.Settled q earlier outcome := by
  have hrefreshed := p.refresh_refreshed clean
  rw [hrefresh] at hrefreshed
  cases hrefreshed with
  | unfetched hq =>
    obtain ⟨_, _, _, _, rfl, -, -⟩ := hq
    exact ⟨rfl, rfl, rfl, rfl⟩
  | unbuilt hq =>
    obtain ⟨_, _, _, _, rfl, -, -⟩ := hq
    exact ⟨rfl, rfl, rfl, rfl⟩
  | published hq hbuilt => exact announced_of_publish h hfew hq hbuilt

end Pool

/-! ### Runs -/

namespace Traffic

variable {σ : Type} [Store σ] {t : Traffic σ} {published : List Work} {taken : Nat}

/-- Whether an event is a refresh. -/
def Event.isRefresh : Event → Bool
  | .refresh _ => true
  | _ => false

/-- How many of some events are refreshes. -/
def refreshes (es : List Event) : Nat := es.countP Event.isRefresh

/-- The job that is published at an event. -/
def published? (t : Traffic σ) : Event → Option Work
  | .refresh clean => (t.pool.refresh clean).1.toOption
  | _ => none

/-- The jobs that are published at some events, in order. -/
def publishedBy (t : Traffic σ) : List Event → List Work
  | [] => []
  | e :: es => (t.published? e).toList ++ publishedBy (t.step e) es

private theorem inUse_refresh (h : t.pool.jobs.InUse published taken) (hfew : taken + 1 < 2 ^ 64) (clean : Bool) :
    (t.step (.refresh clean)).pool.jobs.InUse (published ++ (t.published? (.refresh clean)).toList) (taken + 1) := by
  have hrefreshed := t.pool.refresh_refreshed clean
  simp only [step, published?]
  generalize t.pool.refresh clean = result at hrefreshed ⊢
  cases hrefreshed with
  | unfetched hq =>
    have hmore := h.counted
    rw [show (Except.toOption _).toList = [] from rfl, List.append_nil]
    refine Jobs.InUse.of_same ⟨by omega, h.below, h.distinct, h.valid, h.current⟩ ?_ ?_ ?_
    all_goals rw [hq.jobs]
  | unbuilt hq =>
    rw [show (Except.toOption _).toList = [] from rfl, List.append_nil]
    show (Jobs.takeId _).2.InUse _ _
    rw [hq.jobs]
    exact h.takeId hfew
  | published hq hbuilt =>
    show (Jobs.publish (Jobs.takeId _).2 _ _).2.InUse _ _
    rw [hq.jobs]
    exact h.publish hfew (Work.kept_of_build hbuilt).2.2

theorem inUse_step (h : t.pool.jobs.InUse published taken) (e : Event) (hfew : taken + refreshes [e] < 2 ^ 64) :
    (t.step e).pool.jobs.InUse (published ++ (t.published? e).toList) (taken + refreshes [e]) := by
  by_cases hrefresh : ∃ clean, e = .refresh clean
  · obtain ⟨clean, rfl⟩ := hrefresh
    exact inUse_refresh h hfew clean
  · have hnone : t.published? e = none := by
      cases e with
      | refresh clean => exact absurd ⟨clean, rfl⟩ hrefresh
      | _ => rfl
    have hcount : refreshes [e] = 0 := by
      cases e with
      | refresh clean => exact absurd ⟨clean, rfl⟩ hrefresh
      | _ => rfl
    rw [hnone, hcount, Option.toList_none, List.append_nil]
    rcases (t.step_stepped e).jobs with ⟨clean, _, _, rfl, -⟩ | ⟨hclean, -⟩ | hjobs
    · exact absurd ⟨clean, rfl⟩ hrefresh
    · exact absurd hclean hrefresh
    · rw [hjobs]
      rcases t.handedIn? e with _ | header
      · exact h
      · exact h.of_same rfl rfl rfl

theorem inUse_run (h : t.pool.jobs.InUse published taken) (es : List Event) (hfew : taken + refreshes es < 2 ^ 64) :
    (t.run es).pool.jobs.InUse (published ++ t.publishedBy es) (taken + refreshes es) := by
  induction es generalizing t published taken with
  | nil =>
    rw [publishedBy, List.append_nil]
    exact h
  | cons e es ih =>
    have hsum : refreshes (e :: es) = refreshes [e] + refreshes es := by
      rw [refreshes, ← List.singleton_append, List.countP_append]
      rfl
    rw [hsum] at hfew ⊢
    have hstep := inUse_step h e (by omega)
    rw [publishedBy, ← List.append_assoc, run_cons, ← Nat.add_assoc]
    exact ih hstep (by omega)

/-- Whatever happens before it, a refresh that fails changes neither jobs nor headers and tells nobody; one that
succeeds publishes a job under an id that no other job of the run has, and tells the truth about the jobs before
it. -/
theorem settled_of_refresh {p q : Pool σ} (hfresh : p.IsFresh) (es : List Event) {clean : Bool}
    {outcome : Except Failure Work} (hfew : refreshes (es ++ [.refresh clean]) < 2 ^ 64)
    (hrefresh : ((ofPool p).run es).pool.refresh clean = (outcome, q)) :
    ((ofPool p).run es).pool.Settled q ((ofPool p).publishedBy es) outcome ∧
      (((ofPool p).publishedBy (es ++ [.refresh clean])).map (·.jobId)).Nodup := by
  have hstart : (ofPool p).pool.jobs.InUse [] 0 := by
    show p.jobs.InUse [] 0
    rw [hfresh.jobs]
    exact Jobs.inUse_empty
  have hall := inUse_run hstart (es ++ [.refresh clean]) (by omega)
  have hsum : refreshes (es ++ [.refresh clean]) = refreshes es + 1 := by
    rw [refreshes, List.countP_append]
    rfl
  have hbefore := inUse_run hstart es (by omega)
  rw [Nat.zero_add, List.nil_append] at hbefore
  exact ⟨Pool.settled_of_inUse hbefore (by omega) hrefresh, hall.distinct⟩

/-- A second refresh of the sample keeps the first job in use, and miners are told that it is. -/
theorem settled_of_refresh_sample :
    ∃ work q, samplePool.IsFresh ∧ refreshes (sampleStart ++ [.refresh false]) < 2 ^ 64 ∧
    ((ofPool samplePool).run sampleStart).pool.refresh false = (.ok work, q) ∧
    ((ofPool samplePool).run sampleStart).pool.Announced q ((ofPool samplePool).publishedBy sampleStart) work ∧
    (((ofPool samplePool).publishedBy (sampleStart ++ [.refresh false])).map (·.jobId)).Nodup := by
  obtain ⟨work, notify, hwork⟩ := exists_sampleWork
  obtain ⟨hstart, -⟩ := isSample_start hwork
  obtain ⟨hoffers, hothers⟩ := offers_of_ground hstart.ground
  generalize hid : ((ofPool samplePool).run sampleStart).pool.jobs.nextId = id
  have hbuilt : ((ofPool samplePool).run sampleStart).pool.buildWork sampleTemplate none
      ((ofPool samplePool).run sampleStart).pool.jobs.nextId =
        .ok ({ work with jobId := id }, { notify with jobId := id }) := by
    rw [Pool.buildWork_of_ground hstart.ground, hid]
    exact Work.build_eq_ok.2 (Work.ofTemplate_withId id (Work.build_eq_ok.1 hwork))
  obtain ⟨q, hrefresh, -⟩ := Pool.refresh_of_offers hoffers hothers hbuilt false
  have hfew : refreshes (sampleStart ++ [.refresh false]) < 2 ^ 64 := by decide +kernel
  obtain ⟨hsettled, hdistinct⟩ := settled_of_refresh samplePool_isFresh sampleStart hfew hrefresh
  exact ⟨_, q, samplePool_isFresh, hfew, hrefresh, hsettled, hdistinct⟩

end Traffic

end MergedMining
