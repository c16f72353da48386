import MergedMining.Pool.Connect
import MergedMining.Proofs.Pool.Refresh
import MergedMining.Proofs.Pool.Request

/-!
# Runs of a pool

A pool with all connections that it ever had, and what can happen to them in any order: miners connect, send
lines and leave, messages are delivered, new work is published, shares are stored, daemons recover.  Every
single step has one of the outcomes that `Stepped` lists (`step_stepped`), and what a run keeps is proved from
them by `run_induction`.
-/

namespace MergedMining

open Stratum (Id Message)

/-! ### The start -/

/-- A pool in which nothing has happened yet. -/
structure Pool.IsFresh {σ : Type} (p : Pool σ) : Prop where
  jobs : p.jobs = .empty
  registry : p.registry = .empty
  extranonces : p.extranonces = .default
  bans : p.bans = .ofLimit p.settings.malformedLimit
  shares : p.shares = .empty
  nextSession : p.nextSession = 0

theorem Pool.isFresh_of_start {σ : Type} {settings : PoolSettings} {chains : List ChainNode} {daemons : Daemons}
    {store : σ} {draws : Draws} {sessionName : SessionId → String} {clock : Timestamp} {p : Pool σ}
    (h : Pool.start settings chains daemons store draws sessionName clock = .ok p) : p.IsFresh := by
  unfold Pool.start at h
  rcases chains with _ | ⟨primary, others⟩
  · cases h
  dsimp only at h
  rcases htarget : poolTarget settings.difficulty primary.chain.shareMultiplier with e | target
  · rw [htarget] at h
    cases h
  · rw [htarget] at h
    cases h
    exact ⟨rfl, rfl, rfl, rfl, rfl, rfl⟩

/-- A pool with all connections that it ever had, in the order of their coming. -/
structure Traffic (σ : Type) where
  pool : Pool σ
  connections : List Connection

namespace Traffic

variable {σ : Type}

/-! ### Steps -/

/-- What can happen to a pool.  Connections are given by their place. -/
inductive Event
  | connect (ip : Ip) (deadline : Nat)
  | line (place now : Nat) (text : String)
  | flood (place : Nat)
  | finish (place : Nat) (ending : Ending)
  | limit (place : Nat) (room : Option Nat)
  | deliver (place : Nat)
  | refresh (clean : Bool)
  | flush
  | recover (chain : Nat)
  | stopRecovery

/-- The connection of a place, as long as it is open. -/
def connection? (t : Traffic σ) (place : Nat) : Option Connection :=
  t.connections[place]?.filter (·.ended.isNone)

/-- Does something with an open connection. -/
def act (t : Traffic σ) (place : Nat) (f : Connection → Pool σ → Connection × Pool σ) : Traffic σ :=
  match t.connection? place with
  | none => t
  | some c =>
    let (c, pool) := f c t.pool
    ⟨pool, t.connections.set place c⟩

/-- What happens at an event. -/
def step [Store σ] (t : Traffic σ) : Event → Traffic σ
  | .connect ip deadline => { t with connections := t.connections ++ [Connection.ofIp ip deadline] }
  | .line place now text => t.act place fun c p => c.handleLine p now text
  | .flood place => t.act place fun c p => c.finish { p with bans := p.bans.ban c.ip } .inOrder
  | .finish place ending => t.act place fun c p => c.finish p ending
  | .limit place room => t.act place fun c p => ({ c with room }, p)
  | .deliver place => t.act place fun c p => c.deliver p
  | .refresh clean => { t with pool := (t.pool.refresh clean).2 }
  | .flush =>
    let (_, shares, store) := t.pool.shares.flush t.pool.store
    { t with pool := { t.pool with shares, store } }
  | .recover chain => { t with pool := Service.recover t.pool chain }
  | .stopRecovery => { t with pool := Service.stopRecovery t.pool }

/-- What happens at events in turn. -/
def run [Store σ] (t : Traffic σ) (es : List Event) : Traffic σ := es.foldl step t

/-- A pool that nobody has connected to. -/
def ofPool (p : Pool σ) : Traffic σ := ⟨p, []⟩

/-! ### Lines -/

/-- The request that a line holds; what has no id is answered under none. -/
def request? (text : String) : Option (Id × String × Json) :=
  if text.toList.all Blank.isBlank then none
  else
    match Message.parse? text with
    | some (.request id method params) => some (id, method, params)
    | some (.notification method params) => some (.null, method, params)
    | _ => none

end Traffic

/-! ### Quiet changes -/

/-- Two pools that differ at most in who is registered and in bans. -/
def Pool.Quiet {σ : Type} (p q : Pool σ) : Prop := ∃ registry bans, q = { p with registry, bans }

namespace Connection

variable {σ : Type}

/-- A connection that stayed where it was in the order of stages, or ended. -/
structure Stays (c c' : Connection) (stage : Stage) : Prop where
  ip : c'.ip = c.ip
  stage : c'.stage = stage ∨ c'.stage = .disconnected

theorem finish_quiet (c : Connection) (p : Pool σ) (ending : Ending) : p.Quiet (c.finish p ending).2 :=
  ⟨_, p.bans, rfl⟩

theorem stays_finish (c : Connection) (p : Pool σ) (ending : Ending) (stage : Stage) :
    c.Stays (c.finish p ending).1 stage :=
  ⟨rfl, .inr rfl⟩

/-- What is written are messages from the front, and all of them if it says so. -/
theorem exists_write (c : Connection) (ms : List Message) : ∃ done undone room, ms = done ++ undone ∧
    c.write ms = (undone.isEmpty, { c with sent := done.reverse ++ c.sent, room }) := by
  fun_induction Connection.write c ms with
  | case1 c => exact ⟨[], [], c.room, rfl, rfl⟩
  | case2 c m ms _ ih =>
    obtain ⟨done, undone, room, rfl, hwrite⟩ := ih
    exact ⟨m :: done, undone, room, rfl, by simp [hwrite]⟩
  | case3 c m ms => exact ⟨[], m :: ms, c.room, rfl, rfl⟩
  | case4 c m ms _ _ ih =>
    obtain ⟨done, undone, room, rfl, hwrite⟩ := ih
    exact ⟨m :: done, undone, room, rfl, by simp [hwrite]⟩

theorem ip_write (c : Connection) (ms : List Message) : (c.write ms).2.ip = c.ip := by
  obtain ⟨_, _, _, -, hwrite⟩ := c.exists_write ms
  rw [hwrite]

theorem stage_write (c : Connection) (ms : List Message) : (c.write ms).2.stage = c.stage := by
  obtain ⟨_, _, _, -, hwrite⟩ := c.exists_write ms
  rw [hwrite]

theorem ended_write (c : Connection) (ms : List Message) : (c.write ms).2.ended = c.ended := by
  obtain ⟨_, _, _, -, hwrite⟩ := c.exists_write ms
  rw [hwrite]

theorem sent_of_write {c c' : Connection} {ms : List Message} (h : c.write ms = (true, c')) :
    c'.sent = ms.reverse ++ c.sent := by
  obtain ⟨done, undone, _, rfl, hwrite⟩ := c.exists_write ms
  rw [hwrite] at h
  obtain ⟨hall, rfl⟩ := Prod.mk.inj h
  rw [List.isEmpty_iff.1 hall, List.append_nil]

theorem deliver_quiet (c : Connection) (p : Pool σ) :
    p.Quiet (c.deliver p).2 ∧ c.Stays (c.deliver p).1 c.stage := by
  unfold deliver
  rcases hstage : c.stage with _ | _ | session | _
  · exact ⟨⟨p.registry, p.bans, rfl⟩, rfl, .inl hstage⟩
  · exact ⟨⟨p.registry, p.bans, rfl⟩, rfl, .inl hstage⟩
  · dsimp only
    rcases p.registry.mailbox? session.id with _ | box
    · exact ⟨⟨p.registry, p.bans, rfl⟩, rfl, .inl hstage⟩
    · have hip := c.ip_write box.messages
      have hst := c.stage_write box.messages
      dsimp only
      rcases hwrite : c.write box.messages with ⟨_ | _, c'⟩
      · rw [hwrite] at hip
        exact ⟨finish_quiet c' p .broken, hip, .inr rfl⟩
      · rw [hwrite] at hip hst
        exact ⟨⟨_, p.bans, rfl⟩, hip, .inl (hst.trans hstage)⟩
  · exact ⟨⟨p.registry, p.bans, rfl⟩, rfl, .inl hstage⟩

theorem answer_dispatched [Store σ] (c : Connection) (p : Pool σ) (now : Nat) (id : Id) (method : String)
    (params : Json) : ∃ reaction stage q, p.Dispatched c.ip c.stage id method params (reaction, stage, q) ∧
      q.Quiet (c.answer p now id method params).2 ∧ c.Stays (c.answer p now id method params).1 stage ∧
      ((c.answer p now id method params).1.stage ≠ .disconnected →
        (c.answer p now id method params).1.sent = reaction.messages.reverse ++ c.sent) := by
  have hdispatched := p.dispatch_dispatched c.ip c.stage id method params
  rcases hdispatch : p.dispatch c.ip c.stage id method params with ⟨reaction, stage, q⟩
  rw [hdispatch] at hdispatched
  refine ⟨reaction, stage, q, hdispatched, ?_⟩
  have hip := ip_write { c with stage } reaction.messages
  have hst := stage_write { c with stage } reaction.messages
  rcases hwrite : { c with stage }.write reaction.messages with ⟨_ | _, c'⟩
  · rw [hwrite] at hip
    simp only [answer, hdispatch, hwrite]
    exact ⟨finish_quiet c' q .broken, ⟨hip, .inr rfl⟩, fun hopen => absurd rfl hopen⟩
  · rw [hwrite] at hip hst
    simp only [answer, hdispatch, hwrite]
    have hsent := sent_of_write hwrite
    by_cases hstays : reaction.stays = true
    · rw [if_pos hstays]
      exact ⟨⟨q.registry, q.bans, rfl⟩, ⟨hip, .inl hst⟩, fun _ => hsent⟩
    · rw [if_neg hstays]
      exact ⟨finish_quiet c' q .inOrder, ⟨hip, .inr rfl⟩, fun hopen => absurd rfl hopen⟩

theorem handleLine_of_request [Store σ] (c : Connection) (p : Pool σ) (now : Nat) {text : String} {id : Id}
    {method : String} {params : Json} (h : Traffic.request? text = some (id, method, params)) :
    c.handleLine p now text = c.answer p now id method params := by
  unfold Traffic.request? at h
  unfold handleLine
  by_cases hblank : text.toList.all Blank.isBlank = true
  · rw [if_pos hblank] at h
    cases h
  rw [if_neg hblank] at h ⊢
  generalize Message.parse? text = message at h ⊢
  rcases message with _ | ⟨_, _, _⟩ | ⟨_, _, _⟩ | ⟨_, _⟩
  · cases h
  · cases h
    rfl
  · cases h
  · cases h
    rfl

/-- What is no request is passed over, or ends the connection in order. -/
theorem handleLine_eq_of_no_request [Store σ] (c : Connection) (p : Pool σ) (now : Nat) {text : String}
    (h : Traffic.request? text = none) :
    c.handleLine p now text = (c, p) ∨ ∃ bans, c.handleLine p now text = c.finish { p with bans } .inOrder := by
  unfold Traffic.request? at h
  unfold handleLine
  by_cases hblank : text.toList.all Blank.isBlank = true
  · rw [if_pos hblank]
    exact .inl rfl
  rw [if_neg hblank] at h ⊢
  generalize Message.parse? text = message at h ⊢
  rcases message with _ | ⟨_, _, _⟩ | ⟨_, _, _⟩ | ⟨_, _⟩
  · exact .inr ⟨_, rfl⟩
  · cases h
  · exact .inl rfl
  · cases h

theorem handleLine_of_no_request [Store σ] (c : Connection) (p : Pool σ) (now : Nat) {text : String}
    (h : Traffic.request? text = none) :
    p.Quiet (c.handleLine p now text).2 ∧ c.Stays (c.handleLine p now text).1 c.stage := by
  rcases c.handleLine_eq_of_no_request p now h with heq | ⟨bans, heq⟩
  · rw [heq]
    exact ⟨⟨p.registry, p.bans, rfl⟩, rfl, .inl rfl⟩
  · rw [heq]
    exact ⟨⟨_, bans, rfl⟩, rfl, .inr rfl⟩

end Connection

namespace Traffic

variable {σ : Type}

/-! ### The outcomes of a step -/

/-- The header of the block that a miner hands in at an event, if one can be rebuilt. -/
def handedIn? (t : Traffic σ) : Event → Option Bytes
  | .line place _ text =>
    match t.connection? place, request? text with
    | some c, some (_, method, params) =>
      if method = "mining.submit" then t.pool.handedIn? c.stage params else none
    | _, _ => none
  | _ => none

/-- The outcomes of an event.  Only a line can hand in a header, and only a refresh can change the jobs otherwise. -/
inductive Stepped [Store σ] (t : Traffic σ) : Event → Traffic σ → Prop
  | idle {e : Event} (hnone : t.handedIn? e = none) (hrefresh : ∀ clean, e ≠ .refresh clean) : Stepped t e t
  | connected {ip : Ip} {deadline : Nat} :
      Stepped t (.connect ip deadline) ⟨t.pool, t.connections ++ [Connection.ofIp ip deadline]⟩
  | quiet {e : Event} {place : Nat} {c c' : Connection} {q : Pool σ} (hnone : t.handedIn? e = none)
      (hrefresh : ∀ clean, e ≠ .refresh clean) (hc : t.connection? place = some c) (hq : t.pool.Quiet q)
      (hstays : c.Stays c' c.stage) : Stepped t e ⟨q, t.connections.set place c'⟩
  | requested {place now : Nat} {text : String} {c c' : Connection} {id : Id} {method : String} {params : Json}
      {reaction : Reaction} {stage : Stage} {p q : Pool σ} (hc : t.connection? place = some c)
      (hrequest : request? text = some (id, method, params))
      (h : t.pool.Dispatched c.ip c.stage id method params (reaction, stage, p)) (hq : p.Quiet q)
      (hstays : c.Stays c' stage) (hsent : c'.stage ≠ .disconnected → c'.sent = reaction.messages.reverse ++ c.sent) :
      Stepped t (.line place now text) ⟨q, t.connections.set place c'⟩
  | refreshed {clean : Bool} {result : Except Failure Work} {q : Pool σ}
      (hrefresh : t.pool.refresh clean = (result, q)) (h : t.pool.Refreshed clean (result, q)) :
      Stepped t (.refresh clean) ⟨q, t.connections⟩
  | flushed : Stepped t .flush ⟨{ t.pool with
      shares := (t.pool.shares.flush t.pool.store).2.1
      store := (t.pool.shares.flush t.pool.store).2.2 }, t.connections⟩
  | outward {e : Event} {q : Pool σ} (hnone : t.handedIn? e = none) (hrefresh : ∀ clean, e ≠ .refresh clean)
      (hq : t.pool.Outward q) : Stepped t e ⟨q, t.connections⟩

private theorem act_stepped [Store σ] (t : Traffic σ) (e : Event) (place : Nat)
    (f : Connection → Pool σ → Connection × Pool σ) (hnone : t.handedIn? e = none)
    (hrefresh : ∀ clean, e ≠ .refresh clean)
    (hf : ∀ c, t.pool.Quiet (f c t.pool).2 ∧ c.Stays (f c t.pool).1 c.stage) : t.Stepped e (t.act place f) := by
  unfold act
  rcases hc : t.connection? place with _ | c
  · exact .idle hnone hrefresh
  · exact .quiet hnone hrefresh hc (hf c).1 (hf c).2

private theorem line_stepped [Store σ] (t : Traffic σ) (place now : Nat) (text : String) :
    t.Stepped (.line place now text) (t.act place fun c p => c.handleLine p now text) := by
  unfold act
  rcases hc : t.connection? place with _ | c
  · exact .idle (by simp only [handedIn?, hc]) (fun _ => nofun)
  rcases hrequest : request? text with _ | ⟨id, method, params⟩
  · obtain ⟨hq, hstays⟩ := c.handleLine_of_no_request t.pool now hrequest
    exact .quiet (by simp only [handedIn?, hc, hrequest]) (fun _ => nofun) hc hq hstays
  · obtain ⟨reaction, stage, q, hdispatched, hq, hstays, hsent⟩ := c.answer_dispatched t.pool now id method params
    dsimp only
    rw [c.handleLine_of_request t.pool now hrequest]
    exact .requested hc hrequest hdispatched hq hstays hsent

theorem step_stepped [Store σ] (t : Traffic σ) (e : Event) : t.Stepped e (t.step e) := by
  cases e with
  | connect ip deadline => exact .connected
  | line place now text => exact line_stepped t place now text
  | flood place =>
    exact act_stepped t (.flood place) place (fun c p => c.finish { p with bans := p.bans.ban c.ip } .inOrder) rfl
      (fun _ => nofun) fun c => ⟨⟨_, _, rfl⟩, c.stays_finish _ _ _⟩
  | finish place ending =>
    exact act_stepped t (.finish place ending) place (fun c p => c.finish p ending) rfl (fun _ => nofun)
      fun c => ⟨c.finish_quiet _ _, c.stays_finish _ _ _⟩
  | limit place room =>
    exact act_stepped t (.limit place room) place (fun c p => ({ c with room }, p)) rfl (fun _ => nofun)
      fun c => ⟨⟨t.pool.registry, t.pool.bans, rfl⟩, rfl, .inl rfl⟩
  | deliver place =>
    exact act_stepped t (.deliver place) place (fun c p => c.deliver p) rfl (fun _ => nofun)
      fun c => c.deliver_quiet t.pool
  | refresh clean => exact .refreshed rfl (t.pool.refresh_refreshed clean)
  | flush => exact .flushed
  | recover chain => exact .outward rfl (fun _ => nofun) (Service.recover_outward t.pool chain)
  | stopRecovery => exact .outward rfl (fun _ => nofun) (Service.stopRecovery_outward t.pool)

/-! ### Runs -/

theorem run_cons [Store σ] (t : Traffic σ) (e : Event) (es : List Event) : t.run (e :: es) = (t.step e).run es := rfl

/-- What holds at the start and is kept by every step holds after every run. -/
theorem run_induction [Store σ] {P : Traffic σ → Prop} {t : Traffic σ} (hstart : P t)
    (hstep : ∀ (t : Traffic σ) (e : Event) (t' : Traffic σ), P t → t.Stepped e t' → P t') (es : List Event) :
    P (t.run es) := by
  induction es generalizing t with
  | nil => exact hstart
  | cons e es ih => exact ih (hstep t e _ hstart (t.step_stepped e))

/-! ### Jobs -/

theorem handedIn?_line {t : Traffic σ} {place now : Nat} {text : String} {c : Connection} {id : Id} {method : String}
    {params : Json} (hc : t.connection? place = some c) (hrequest : request? text = some (id, method, params)) :
    t.handedIn? (.line place now text) =
      if method = "mining.submit" then t.pool.handedIn? c.stage params else none := by
  simp only [handedIn?, hc, hrequest]

private theorem jobs_of_submitted {p q : Pool σ} {ip : Ip} {stage : Stage} {id : Id} {params : Json}
    {reaction : Reaction} (h : p.Submitted ip stage id params (reaction, q)) :
    q.jobs = match p.handedIn? stage params with
      | none => p.jobs
      | some header => (p.jobs.isDuplicate (sha256d header)).2 := by
  cases h with
  | turnedAway hnone => rw [hnone]
  | duplicate h hseen =>
    rw [h.handedIn?]
    rfl
  | refused h hnew hstatus hcode =>
    rw [h.handedIn?]
    rfl
  | counted h hnew hsum haux hstatus hq =>
    rw [h.handedIn?, hq.jobs]
    rfl

/-- The jobs after an event: a refresh may publish one, and a header that is handed in is noted. -/
theorem Stepped.jobs [Store σ] {t t' : Traffic σ} {e : Event} (h : t.Stepped e t') :
    (∃ clean work q, e = .refresh clean ∧ t.pool.refresh clean = (.ok work, q) ∧
      t'.pool.jobs = (t.pool.jobs.takeId.2.publish work clean).2) ∨
    ((∃ clean, e = .refresh clean) ∧ t.handedIn? e = none ∧ t'.pool.jobs = t.pool.jobs.takeId.2) ∨
    t'.pool.jobs = match t.handedIn? e with
      | none => t.pool.jobs
      | some header => (t.pool.jobs.isDuplicate (sha256d header)).2 := by
  cases h with
  | idle hnone => exact .inr (.inr (by rw [hnone]))
  | connected => exact .inr (.inr rfl)
  | quiet hnone _ _ hq =>
    obtain ⟨_, _, rfl⟩ := hq
    exact .inr (.inr (by rw [hnone]))
  | requested hc hrequest h hq =>
    obtain ⟨_, _, rfl⟩ := hq
    refine .inr (.inr ?_)
    rw [handedIn?_line hc hrequest]
    -- of all requests only a submission looks at the jobs
    cases h with
    | answered _ hmethod => rw [if_neg hmethod]
    | exhausted _ hmethod => rw [if_neg (by rw [hmethod]; decide)]
    | subscribed hmethod => rw [if_neg (by rw [hmethod]; decide)]
    | authorized hmethod =>
      rw [if_neg (by rw [hmethod]; decide)]
      rfl
    | submitted hmethod h =>
      rw [if_pos hmethod]
      have hjobs := jobs_of_submitted h
      exact hjobs
  | refreshed hrefresh h =>
    cases h with
    | unfetched hq => exact .inr (.inr hq.jobs)
    | unbuilt hq => exact .inr (.inl ⟨⟨_, rfl⟩, rfl, congrArg (fun jobs => jobs.takeId.2) hq.jobs⟩)
    | @published _ _ work _ q hq _ =>
      refine .inl ⟨_, work, _, rfl, hrefresh, ?_⟩
      show (q.jobs.takeId.2.publish work _).2 = _
      rw [hq.jobs]
  | flushed => exact .inr (.inr rfl)
  | outward hnone _ hq => exact .inr (.inr (by rw [hnone]; exact hq.jobs))

/-! ### Waiting shares -/

private theorem flush_waiting [Store σ] (b : ShareBuffer) (store : σ) :
    (b.flush store).2.1.waiting = b.waiting ∨ (b.flush store).2.1.waiting = [] := by
  unfold ShareBuffer.flush
  dsimp only
  split
  · exact .inl rfl
  · rcases Store.insertShares store b.waiting with ⟨e | _, store'⟩
    · exact .inl (List.append_nil _)
    · exact .inr rfl

private theorem waiting_of_outward {p q : Pool σ} (h : p.Outward q) : q.shares.waiting = p.shares.waiting :=
  congrArg ShareBuffer.waiting h.shares

/-- A line hands in work on an authorized connection, which earns the miner of its session a share. -/
structure Earns (t : Traffic σ) (e : Event) (place : Nat) (session : Session) (header : Bytes) (share : Share) :
    Prop where
  submitted : ∃ now text c id params submit work block sum summed aux, e = .line place now text ∧
    t.connection? place = some c ∧ request? text = some (id, "mining.submit", params) ∧
    t.pool.Rebuilds c.stage params session submit work block header ∧ block.sum = .ok (sum, summed) ∧
    work.auxTarget = .ok aux ∧ ShareStatus.ofSum sum work.template.target aux t.pool.target ≠ .invalid
  new : (t.pool.jobs.isDuplicate (sha256d header)).1 = false
  miner : share.miner = session.login.miner
  worker : share.worker = session.login.rig
  userAgent : share.userAgent = session.userAgent

theorem Earns.handedIn? {t : Traffic σ} {e : Event} {place : Nat} {session : Session} {header : Bytes} {share : Share}
    (h : t.Earns e place session header share) : t.handedIn? e = some header := by
  obtain ⟨_, _, _, _, _, _, _, _, _, _, _, rfl, hc, hrequest, hrebuilds, -⟩ := h.submitted
  rw [handedIn?_line hc hrequest, if_pos rfl, hrebuilds.handedIn?]

/-- The waiting shares after an event: as before, none when they were flushed, or one more that was earned. -/
theorem Stepped.waiting [Store σ] {t t' : Traffic σ} {e : Event} (h : t.Stepped e t') :
    t'.pool.shares.waiting = t.pool.shares.waiting ∨ (e = .flush ∧ t'.pool.shares.waiting = []) ∨
      ∃ place session header share, t'.pool.shares.waiting = t.pool.shares.waiting ++ [share] ∧
        t.Earns e place session header share := by
  cases h with
  | idle => exact .inl rfl
  | connected => exact .inl rfl
  | quiet _ _ _ hq =>
    obtain ⟨_, _, rfl⟩ := hq
    exact .inl rfl
  | @requested place now text c _ id _ params _ _ _ _ hc hrequest h hq =>
    obtain ⟨_, _, rfl⟩ := hq
    cases h with
    | answered => exact .inl rfl
    | exhausted => exact .inl rfl
    | subscribed => exact .inl rfl
    | authorized => exact .inl rfl
    | submitted hmethod h =>
      subst hmethod
      cases h with
      | turnedAway => exact .inl rfl
      | duplicate => exact .inl rfl
      | refused => exact .inl rfl
      | counted h hnew hsum haux hstatus hq =>
        exact .inr (.inr ⟨place, _, _, _, waiting_of_outward hq,
          ⟨now, text, c, id, params, _, _, _, _, _, _, rfl, hc, hrequest, h, hsum, haux, hstatus⟩,
          hnew, rfl, rfl, rfl⟩)
  | refreshed _ h =>
    cases h with
    | unfetched hq => exact .inl (waiting_of_outward hq)
    | unbuilt hq =>
      have hwaiting := waiting_of_outward hq
      exact .inl hwaiting
    | published hq =>
      have hwaiting := waiting_of_outward hq
      exact .inl hwaiting
  | flushed => exact (flush_waiting _ _).imp_right fun hnone => .inl ⟨rfl, hnone⟩
  | outward _ _ hq => exact .inl (waiting_of_outward hq)

end Traffic

end MergedMining
