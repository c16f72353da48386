import MergedMining.Proofs.Pool.Outward

/-!
# What a refresh can do

A refresh fails without a template, fails with a job id used up, or publishes a job (`refresh_refreshed`).
-/

namespace MergedMining

open Stratum (Notify)

namespace Pool

variable {σ : Type}

/-- The pool with a job id taken. -/
def takingId (p : Pool σ) : Pool σ := { p with jobs := p.jobs.takeId.2 }

/-- The pool with a job published. -/
def publishing (p : Pool σ) (work : Work) (clean : Bool) : Pool σ := { p with jobs := (p.jobs.publish work clean).2 }

/-- The outcomes of a refresh. -/
inductive Refreshed (p : Pool σ) (clean : Bool) : Except Failure Work × Pool σ → Prop
  | unfetched {e : Failure} {q : Pool σ} (hq : p.Outward q) : Refreshed p clean (.error e, q)
  | unbuilt {template : BlockTemplate} {aux : Option AuxBlock} {e : Fault} {q : Pool σ} (hq : p.Outward q)
      (hfailed : p.buildWork template aux p.jobs.nextId = .error e) :
      Refreshed p clean (.error (.fault e), q.takingId)
  | published {template : BlockTemplate} {aux : Option AuxBlock} {work : Work} {notify : Notify} {q : Pool σ}
      (hq : p.Outward q) (hbuilt : p.buildWork template aux p.jobs.nextId = .ok (work, notify)) :
      Refreshed p clean (.ok work, (q.takingId.publishing work clean).announce
        (notify.withClean (q.takingId.jobs.publish work clean).1))

theorem refresh_refreshed (p : Pool σ) (clean : Bool) : p.Refreshed clean (p.refresh clean) := by
  have hq := fetchTemplates_outward p
  unfold refresh
  rcases hfetch : p.fetchTemplates with ⟨e | ⟨template, aux⟩, q⟩
  · rw [hfetch] at hq
    exact .unfetched hq
  · rw [hfetch] at hq
    have hbuild : q.takingId.buildWork template aux q.jobs.takeId.1 = p.buildWork template aux p.jobs.nextId := by
      show q.buildWork template aux q.jobs.nextId = _
      rw [hq.buildWork, hq.jobs]
    dsimp only
    rcases hbuilt : q.takingId.buildWork template aux q.jobs.takeId.1 with e | ⟨work, notify⟩
    all_goals
      rw [takingId] at hbuilt
      rw [hbuilt]
      rw [← takingId, hbuild] at hbuilt
    · exact .unbuilt hq hbuilt
    · exact .published hq hbuilt

theorem buildWork_of_refresh {p q : Pool σ} {clean : Bool} {work : Work} (h : p.refresh clean = (.ok work, q)) :
    ∃ template aux notify, p.buildWork template aux p.jobs.nextId = .ok (work, notify) := by
  have hrefreshed := p.refresh_refreshed clean
  rw [h] at hrefreshed
  cases hrefreshed with
  | published _ hbuilt => exact ⟨_, _, _, hbuilt⟩

end Pool

end MergedMining
