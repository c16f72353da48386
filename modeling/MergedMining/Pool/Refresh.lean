import MergedMining.Pool.Basic

/-!
# New work

A refresh fetches templates, builds a job, publishes it and tells every registered session.  A merge-mined chain
that has no block to offer leaves the primary chain mined alone.  A refresh that fails tells nobody and leaves
the jobs in use as they are; at most a job id is used up.
-/

namespace MergedMining

open Stratum (JobId Message Notify)

namespace Pool

variable {σ : Type}

/-- Fetches the template of the primary chain, and the block of the merge-mined one. -/
def fetchTemplates (p : Pool σ) : Except Failure (BlockTemplate × Option AuxBlock) × Pool σ :=
  match p.askPrimary Node.getBlockTemplate with
  | (.error e, p) => (.error (.during (.fetchingTemplate p.primary.chain.name) (.fault e)), p)
  | (.ok template, p) =>
    match p.askAux fun aux node => node.createAuxBlock aux.rewardAddress with
    | (some (.ok aux), p) => (.ok (template, some aux), p)
    | (_, p) => (.ok (template, none), p)

/-- Builds the job of a template. -/
def buildWork (p : Pool σ) (template : BlockTemplate) (aux : Option AuxBlock) (jobId : JobId) :
    Except Fault (Work × Notify) :=
  Work.build (some template) aux p.primary.chain p.settings.signature p.primary.script reserved jobId

/-- Makes a job current; says whether it ended the older ones. -/
def publish (p : Pool σ) (work : Work) (clean : Bool) : Bool × Pool σ :=
  let (clean, jobs) := p.jobs.publish work clean
  (clean, { p with jobs })

/-- The message that hands out a job. -/
def notification (notify : Notify) : Message :=
  .notification Stratum.notifyMethod notify.toJson

/-- Tells every registered session of a job. -/
def announce (p : Pool σ) (notify : Notify) : Pool σ :=
  { p with registry := (p.registry.broadcast (notification notify)).2 }

/-- Builds and publishes a job from fresh templates. -/
def refresh (p : Pool σ) (clean : Bool) : Except Failure Work × Pool σ :=
  match p.fetchTemplates with
  | (.error e, p) => (.error e, p)
  | (.ok (template, aux), p) =>
    let (id, jobs) := p.jobs.takeId
    let p := { p with jobs }
    match p.buildWork template aux id with
    | .error e => (.error (.fault e), p)
    | .ok (work, notify) =>
      let (clean, p) := p.publish work clean
      (.ok work, p.announce (notify.withClean clean))

end Pool

end MergedMining
