import MergedMining.Proofs.Pool.Ground
import MergedMining.Store.Ledger

/-!
# Daemons that always offer the same template

A pool without a merge-mined chain whose daemons answer every request for a template in the same way publishes
one job over and over, each time under a new id (`refresh_of_offers`).  A submission that is new to it and
reaches the target is counted, and the connection stays open (`step_of_rebuilds`).
-/

namespace MergedMining

open Stratum (Id Message)

namespace Pool

variable {σ : Type} {p q : Pool σ} {template : BlockTemplate}

/-- Whatever was asked before, a request for a template is answered with the given one. -/
def Offers (p : Pool σ) (template : BlockTemplate) : Prop :=
  ∀ calls call, call.method = "getblocktemplate" →
    ∃ v, p.daemons.reply calls call = .ok v ∧ BlockTemplate.ofJson? v = some template

theorem Offers.of_ground (h : p.Offers template) (hground : q.ground = p.ground) : q.Offers template := by
  have hreply : q.daemons.reply = p.daemons.reply := congrArg Ground.reply hground
  unfold Offers
  rw [hreply]
  exact h

theorem fetchTemplates_of_offers (h : p.Offers template) (hothers : p.others = []) :
    p.fetchTemplates.1 = .ok (template, none) := by
  obtain ⟨v, hreply, hdecode⟩ := h p.daemons.calls
    ⟨p.primary.cluster.activeNode, "getblocktemplate", .arr [.obj [("rules", .arr [.str "mweb", .str "segwit"])]]⟩ rfl
  have hread : ((Node.getBlockTemplate p.primary.cluster.activeNode).run p.daemons).1 = .ok template :=
    Node.run_read_of_reply hreply hdecode
  unfold fetchTemplates askPrimary Cluster.call
  rcases hrun : (Node.getBlockTemplate p.primary.cluster.activeNode).run p.daemons with ⟨answer, d⟩
  rw [hrun] at hread
  cases hread
  simp only [askAux, hothers]

/-- A job that can be built from what was fetched is published. -/
theorem refresh_of_fetched {aux : Option AuxBlock} (hfetched : p.fetchTemplates.1 = .ok (template, aux)) {work : Work}
    {notify : Stratum.Notify} (hbuilt : p.buildWork template aux p.jobs.nextId = .ok (work, notify)) (clean : Bool) :
    ∃ q, p.refresh clean = (.ok work, q) ∧ q.jobs = (p.jobs.takeId.2.publish work clean).2 ∧
      q.shares = p.shares := by
  have hq := fetchTemplates_outward p
  unfold refresh
  rcases hfetch : p.fetchTemplates with ⟨result, q⟩
  rw [hfetch] at hfetched hq
  cases hfetched
  have hbuilt' : q.takingId.buildWork template aux q.jobs.takeId.1 = .ok (work, notify) := by
    show q.buildWork template aux q.jobs.nextId = _
    rw [hq.buildWork, hq.jobs, hbuilt]
  rw [takingId] at hbuilt'
  dsimp only
  rw [hbuilt']
  refine ⟨_, rfl, ?_, ?_⟩
  · show (q.jobs.takeId.2.publish work clean).2 = _
    rw [hq.jobs]
  · obtain ⟨_, _, _, _, rfl, -, -⟩ := hq
    rfl

/-- A job that can be built from what is offered is published. -/
theorem refresh_of_offers (h : p.Offers template) (hothers : p.others = []) {work : Work} {notify : Stratum.Notify}
    (hbuilt : p.buildWork template none p.jobs.nextId = .ok (work, notify)) (clean : Bool) :
    ∃ q, p.refresh clean = (.ok work, q) ∧ q.jobs = (p.jobs.takeId.2.publish work clean).2 ∧
      q.shares = p.shares :=
  refresh_of_fetched (fetchTemplates_of_offers h hothers) hbuilt clean

/-- A job that is published is for what is offered. -/
theorem template_of_offers (h : p.Offers template) (hothers : p.others = []) {clean : Bool} {work : Work}
    (hrefresh : p.refresh clean = (.ok work, q)) : work.template = template := by
  have hfetched := fetchTemplates_of_offers h hothers
  unfold refresh at hrefresh
  rcases hfetch : p.fetchTemplates with ⟨result, p'⟩
  rw [hfetch] at hfetched hrefresh
  cases hfetched
  dsimp only at hrefresh
  split at hrefresh
  · cases hrefresh
  · next hbuilt =>
    cases hrefresh
    exact Work.template_eq (Work.build_eq_ok.1 hbuilt)

end Pool

theorem Target.le_max (t : Target) : t ≤ Target.max := by
  have hmax : Target.max.toNat = 2 ^ 256 - 1 := by decide
  have hlt : t.toNat < 2 ^ 256 := t.isLt
  show t.toNat ≤ Target.max.toNat
  omega

namespace Pool

variable {σ : Type} [Store σ] {p q : Pool σ} {stage : Stage} {params : Json} {session : Session}
  {submit : Stratum.Submit} {work : Work} {block : Block} {header : Bytes}

/-- Work that no target is out of reach for is counted when it is new. -/
theorem submit_of_rebuilds (h : p.Rebuilds stage params session submit work block header)
    (hnew : (p.jobs.isDuplicate (sha256d header)).1 = false) (htarget : work.template.target = .max)
    (haux : work.aux = none) (ip : Ip) (id : Id) :
    ∃ share q, p.submit ip stage id params = (.answer (.result id (.bool true)), q) ∧
      q.shares.waiting = p.shares.waiting ++ [share] ∧ q.jobs = (p.jobs.isDuplicate (sha256d header)).2 := by
  have hsubmitted := p.submit_submitted ip stage id params
  rcases hsubmit : p.submit ip stage id params with ⟨reaction, q⟩
  rw [hsubmit] at hsubmitted
  have htargets : work.auxTarget = .ok none := by rw [Work.auxTarget, haux]
  cases hsubmitted with
  | turnedAway hnone =>
    rw [h.handedIn?] at hnone
    cases hnone
  | duplicate h' hseen =>
    obtain ⟨-, -, -, -, rfl⟩ := h.unique h'
    rw [hnew] at hseen
    cases hseen
  | refused h' _ hstatus =>
    obtain ⟨-, -, rfl, rfl, rfl⟩ := h.unique h'
    have hsum := Block.sum_eq_ok.2 ⟨_, h.header_eq, rfl, rfl⟩
    have hinvalid := hstatus none _ _ htargets hsum
    simp [ShareStatus.ofSum, htarget, Target.le_max] at hinvalid
  | counted h' _ hsum _ _ hq =>
    obtain ⟨-, -, -, -, rfl⟩ := h.unique h'
    exact ⟨_, q, rfl, congrArg ShareBuffer.waiting hq.shares, hq.jobs⟩

end Pool

namespace Traffic

variable {σ : Type} [Store σ] {t : Traffic σ}

/-- A submission that is answered leaves its connection as it is. -/
theorem step_of_answer {place now : Nat} {text : String} {c : Connection} {id : Id} {params : Json}
    {message : Message} {q : Pool σ} (hc : t.connection? place = some c) (hroom : c.room = none)
    (hrequest : request? text = some (id, "mining.submit", params))
    (hsubmit : t.pool.submit c.ip c.stage id params = (.answer message, q)) :
    (t.step (.line place now text)).pool = q ∧
      ∃ c', (t.step (.line place now text)).connection? place = some c' ∧ c'.stage = c.stage ∧ c'.room = none := by
  obtain ⟨c', hc'⟩ : ∃ c' : Connection, c' = { c with
      sent := message :: c.sent
      deadline := now + q.settings.connectionTimeout } := ⟨_, rfl⟩
  have hanswer : c.answer t.pool now id "mining.submit" params = (c', q) := by
    simp [hc', Connection.answer, Pool.dispatch, hsubmit, Reaction.answer, Connection.write, hroom]
  have hstep : t.step (.line place now text) = ⟨q, t.connections.set place c'⟩ := by
    simp only [step, act, hc, c.handleLine_of_request t.pool now hrequest, hanswer]
  obtain ⟨hget, hopen⟩ := Option.filter_eq_some_iff.1 hc
  obtain ⟨hplace, -⟩ := List.getElem?_eq_some_iff.1 hget
  rw [hstep]
  refine ⟨rfl, c', ?_, by rw [hc'], by rw [hc']; exact hroom⟩
  rw [connection?, List.getElem?_set_self hplace, Option.filter_some, if_pos (by rw [hc']; exact hopen)]

/-- A submission of work that no target is out of reach for is counted when it is new, and the connection stays
as it is. -/
theorem step_of_rebuilds {place now : Nat} {text : String} {c : Connection} {id : Id} {params : Json}
    {session : Session} {submit : Stratum.Submit} {work : Work} {block : Block} {header : Bytes}
    (hc : t.connection? place = some c) (hroom : c.room = none)
    (hrequest : request? text = some (id, "mining.submit", params))
    (h : t.pool.Rebuilds c.stage params session submit work block header)
    (hnew : (t.pool.jobs.isDuplicate (sha256d header)).1 = false) (htarget : work.template.target = .max)
    (haux : work.aux = none) :
    (∃ share, (t.step (.line place now text)).pool.shares.waiting = t.pool.shares.waiting ++ [share]) ∧
      (t.step (.line place now text)).pool.jobs = (t.pool.jobs.isDuplicate (sha256d header)).2 ∧
      ∃ c', (t.step (.line place now text)).connection? place = some c' ∧ c'.stage = c.stage ∧ c'.room = none := by
  obtain ⟨share, q, hsubmit, hshare, hjobs⟩ := Pool.submit_of_rebuilds h hnew htarget haux c.ip id
  obtain ⟨hpool, hstays⟩ := @step_of_answer _ _ t place now _ _ _ _ _ _ hc hroom hrequest hsubmit
  rw [hpool]
  exact ⟨⟨share, hshare⟩, hjobs, hstays⟩

end Traffic

/-! ### A pool with one miner -/

/-- A pool whose daemon always offers the sample template, and which accepts any work. -/
def samplePool : Pool Ledger where
  settings := { name := "pool", signature := [0x2f], difficulty := 1, malformedLimit := 5, connectionTimeout := 600 }
  primary := ⟨.dogecoin, .main, ⟨"dogecoin", [⟨0, 0, "http://node"⟩], 0, false, by decide⟩, "", [0x51]⟩
  others := []
  daemons := ⟨fun _ call => if call.method = "getblocktemplate" then .ok sampleTemplate.toJson else .ok .null, []⟩
  store := .empty
  target := .max
  draws := fun _ size => List.replicate size 7
  sessionName := fun _ => "session"
  clock := ⟨0, 0⟩
  jobs := .empty
  registry := .empty
  extranonces := .default
  bans := .ofLimit 5
  shares := .empty
  nextSession := 0

theorem samplePool_isFresh : samplePool.IsFresh := ⟨rfl, rfl, rfl, rfl, rfl, rfl⟩

theorem samplePool_offers : samplePool.Offers sampleTemplate := by
  intro calls call hmethod
  refine ⟨sampleTemplate.toJson, ?_, by rfl⟩
  show (if call.method = "getblocktemplate" then _ else _) = _
  rw [if_pos hmethod]

/-- The session of the miner of the sample. -/
def sampleSession : Session :=
  ⟨⟨0, ⟨[7, 7, 7, 7]⟩, ""⟩, ⟨["D1111111111111111111111111111"], "rig"⟩⟩

/-- A miner connects, subscribes and authorizes. -/
def sampleLogin : List Traffic.Event :=
  [.connect (.four [10, 0, 0, 1]) 600,
    .line 0 0 "\x7b\"id\":\"a\",\"method\":\"mining.subscribe\",\"params\":[]\x7d",
    .line 0 0 ("\x7b\"id\":\"b\",\"method\":\"mining.authorize\"," ++
      "\"params\":[\"D1111111111111111111111111111.rig\"]\x7d")]

/-- The first job is published when the miner is logged in. -/
def sampleStart : List Traffic.Event := sampleLogin ++ [.refresh true]

/-- The line of a submission for a job. -/
def sampleLine (job : String) : String :=
  "\x7b\"id\":\"c\",\"method\":\"mining.submit\",\"params\":[\"rig\",\"" ++ job ++
    "\",\"00000000\",\"6553f101\",\"00000000\"]\x7d"

/-- What that line submits. -/
def sampleSubmit (id : Stratum.JobId) : Stratum.Submit := ⟨"rig", id, ⟨[0, 0, 0, 0]⟩, ⟨0x6553f101⟩, ⟨0⟩⟩

namespace Traffic

variable {t : Traffic Ledger} {work : Work} {notify : Stratum.Notify}

/-- The line of the sample for a job is read as it is meant. -/
def Reads (job : String) (id : Stratum.JobId) : Prop :=
  (request? (sampleLine job)).map (fun r => (r.1, r.2.1, (Stratum.Submit.ofJson r.2.2).toOption)) =
    some (.text "c", "mining.submit", some (sampleSubmit id))

theorem reads_zero : Reads "00000000" ⟨0⟩ := by
  unfold Reads
  decide +kernel

theorem reads_one : Reads "00000001" ⟨1⟩ := by
  unfold Reads
  decide +kernel

theorem Reads.exists_params {job : String} {id : Stratum.JobId} (h : Reads job id) : ∃ params,
    request? (sampleLine job) = some (.text "c", "mining.submit", params) ∧
      Stratum.Submit.ofJson params = .ok (sampleSubmit id) := by
  obtain ⟨⟨rid, method, params⟩, hrequest, hfields⟩ := Option.map_eq_some_iff.1 h
  obtain ⟨rfl, rfl, hparams⟩ : rid = .text "c" ∧ method = "mining.submit" ∧
      (Stratum.Submit.ofJson params).toOption = some (sampleSubmit id) := by
    simpa using hfields
  refine ⟨params, hrequest, ?_⟩
  rcases hsubmit : Stratum.Submit.ofJson params with e | submit
  · rw [hsubmit] at hparams
    cases hparams
  · rw [hsubmit] at hparams
    exact congrArg Except.ok (Option.some.inj hparams)

/-- The pool of the sample in the course of a run, with its miner logged in. -/
structure IsSample (t : Traffic Ledger) : Prop where
  ground : t.pool.ground = samplePool.ground
  miner : ∃ c, t.connection? 0 = some c ∧ c.stage = .authorized sampleSession ∧ c.room = none

theorem isSample_login :
    ((ofPool samplePool).run sampleLogin).IsSample ∧
      ((ofPool samplePool).run sampleLogin).pool.jobs.nextId = ⟨0⟩ := by
  refine ⟨⟨ground_run _ _, ?_⟩, by decide +kernel⟩
  have hlogin : (((ofPool samplePool).run sampleLogin).connection? 0).map (fun c => (c.stage, c.room)) =
      some (.authorized sampleSession, none) := by
    decide +kernel
  obtain ⟨c, hc, hstage⟩ := Option.map_eq_some_iff.1 hlogin
  exact ⟨c, hc, congrArg Prod.fst hstage, congrArg Prod.snd hstage⟩

theorem offers_of_ground (h : t.pool.ground = samplePool.ground) :
    t.pool.Offers sampleTemplate ∧ t.pool.others = [] := by
  refine ⟨samplePool_offers.of_ground h, ?_⟩
  have hothers : t.pool.others.map ChainNode.identity = [] := congrArg Ground.others h
  exact List.map_eq_nil_iff.1 hothers

/-- A clean refresh publishes the job of the sample, and nothing was handed in for it yet. -/
theorem IsSample.refresh (h : t.IsSample)
    (hwork : Work.build (some sampleTemplate) none .dogecoin [0x2f] [0x51] 8 ⟨7⟩ = .ok (work, notify)) :
    (t.step (.refresh true)).IsSample ∧ (t.step (.refresh true)).pool.jobs.nextId = t.pool.jobs.nextId.next ∧
      (t.step (.refresh true)).pool.jobs.get? t.pool.jobs.nextId = some { work with jobId := t.pool.jobs.nextId } ∧
      ∀ key, ((t.step (.refresh true)).pool.jobs.isDuplicate key).1 = false := by
  obtain ⟨hoffers, hothers⟩ := offers_of_ground h.ground
  have hbuilt : t.pool.buildWork sampleTemplate none t.pool.jobs.nextId =
      .ok ({ work with jobId := t.pool.jobs.nextId }, { notify with jobId := t.pool.jobs.nextId }) := by
    rw [Pool.buildWork_of_ground h.ground]
    exact Work.build_eq_ok.2 (Work.ofTemplate_withId _ (Work.build_eq_ok.1 hwork))
  obtain ⟨q, hrefresh, hjobs, -⟩ := Pool.refresh_of_offers hoffers hothers hbuilt true
  have hstep : t.step (.refresh true) = ⟨q, t.connections⟩ := by rw [step, hrefresh]
  have hground := (t.step_stepped (.refresh true)).ground.trans h.ground
  rw [hstep] at hground ⊢
  refine ⟨⟨hground, h.miner⟩, ?_, ?_, fun key => ?_⟩
  · rw [hjobs]
    rfl
  · rw [hjobs]
    exact List.lookup_cons_self
  · rw [hjobs]
    rfl

theorem isSample_start
    (hwork : Work.build (some sampleTemplate) none .dogecoin [0x2f] [0x51] 8 ⟨7⟩ = .ok (work, notify)) :
    ((ofPool samplePool).run sampleStart).IsSample ∧ ((ofPool samplePool).run sampleStart).pool.jobs.nextId = ⟨1⟩ ∧
      ((ofPool samplePool).run sampleStart).pool.jobs.get? ⟨0⟩ = some { work with jobId := ⟨0⟩ } ∧
      ∀ key, (((ofPool samplePool).run sampleStart).pool.jobs.isDuplicate key).1 = false := by
  obtain ⟨hlogin, hid⟩ := isSample_login
  have hrun : (ofPool samplePool).run sampleStart = ((ofPool samplePool).run sampleLogin).step (.refresh true) := by
    rw [sampleStart, run, List.foldl_append]
    rfl
  obtain ⟨hstart, hnextId, hjob, hnew⟩ := hlogin.refresh hwork
  rw [hid] at hnextId hjob
  rw [hrun]
  exact ⟨hstart, hnextId, hjob, hnew⟩

variable {job : String} {id : Stratum.JobId} {block : Block} {header : Bytes}

/-- A line of the sample hands in the header that can be made for its job. -/
theorem IsSample.rebuilds (h : t.IsSample)
    (hmade : (Block.ofWork work).makeHeader ([7, 7, 7, 7] ++ [0, 0, 0, 0]) ⟨0⟩ ⟨0x6553f101⟩ = .ok block)
    (hheader : block.header = some header)
    (hline : Reads job id) (hjob : t.pool.jobs.get? id = some { work with jobId := id }) :
    ∃ c params, t.connection? 0 = some c ∧ c.room = none ∧
      request? (sampleLine job) = some (.text "c", "mining.submit", params) ∧
      t.pool.Rebuilds c.stage params sampleSession (sampleSubmit id) { work with jobId := id }
        { block with work := { work with jobId := id } } header := by
  obtain ⟨params, hrequest, hread⟩ := hline.exists_params
  obtain ⟨c, hc, hstage, hroom⟩ := h.miner
  have hsize : t.pool.extranonces.minerSize = 4 := congrArg Ground.minerSize h.ground
  exact ⟨c, params, hc, hroom, hrequest, hstage, hread, hjob, by rw [hsize]; rfl, Block.makeHeader_withId id hmade,
    hheader⟩

/-- A line of the sample is counted when its header is new. -/
theorem IsSample.submit (h : t.IsSample)
    (hwork : Work.build (some sampleTemplate) none .dogecoin [0x2f] [0x51] 8 ⟨7⟩ = .ok (work, notify))
    (hmade : (Block.ofWork work).makeHeader ([7, 7, 7, 7] ++ [0, 0, 0, 0]) ⟨0⟩ ⟨0x6553f101⟩ = .ok block)
    (hheader : block.header = some header)
    (hline : Reads job id) (hjob : t.pool.jobs.get? id = some { work with jobId := id })
    (hnew : (t.pool.jobs.isDuplicate (sha256d header)).1 = false) :
    (t.step (.line 0 0 (sampleLine job))).IsSample ∧ t.handedIn? (.line 0 0 (sampleLine job)) = some header ∧
      (∃ share, (t.step (.line 0 0 (sampleLine job))).pool.shares.waiting = t.pool.shares.waiting ++ [share]) ∧
      (t.step (.line 0 0 (sampleLine job))).pool.jobs = (t.pool.jobs.isDuplicate (sha256d header)).2 := by
  obtain ⟨c, params, hc, hroom, hrequest, hrebuilds⟩ := h.rebuilds hmade hheader hline hjob
  obtain ⟨_, _, _, _, -, -, -, -, hbuilt, -⟩ := Work.ofTemplate_eq_ok.1 (Work.build_eq_ok.1 hwork)
  have htarget : work.template.target = .max := by rw [hbuilt]; rfl
  have haux : work.aux = none := by rw [hbuilt]
  obtain ⟨hshare, hjobs, c', hc', hstage', hroom'⟩ :=
    step_of_rebuilds (t := t) hc hroom hrequest hrebuilds hnew htarget haux
  have hground := (t.step_stepped (.line 0 0 (sampleLine job))).ground.trans h.ground
  refine ⟨⟨hground, c', hc', hstage'.trans hrebuilds.authorized, hroom'⟩, ?_, hshare, hjobs⟩
  rw [handedIn?_line hc hrequest, if_pos rfl, hrebuilds.handedIn?]

end Traffic

end MergedMining
