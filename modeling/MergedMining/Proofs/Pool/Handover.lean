import MergedMining.Proofs.Pool.Traffic
import MergedMining.Proofs.Registry

/-!
# A miner joins while new work comes in

A refresh publishes a job, notes which sessions are registered, and tells them one by one, and an authorization
of a miner may do its own steps at any moment between.  `Handover` is a pool with one refresh at a time and one
miner that is being authorized, moved in such steps.  A refresh and an authorization that nothing comes between
are steps in a row (`exists_run?_refresh`, `run?_authorize`), and so is the emptying of a mailbox
(`run?_deliver`).
-/

namespace MergedMining

open Stratum (Id JobId Message Notify)

/-! ### Messages that hand out a job -/

/-- Whether a message hands out a job. -/
def Stratum.Message.isNotify : Message → Bool
  | .notification method _ => method = Stratum.notifyMethod
  | _ => false

/-- A message hands out this job. -/
def Work.HandedOutBy (work : Work) (message : Message) : Prop :=
  ∃ clean notify, work.notify clean = .ok notify ∧ message = Pool.notification notify

theorem Work.HandedOutBy.isNotify {work : Work} {message : Message} (h : work.HandedOutBy message) :
    message.isNotify = true := by
  obtain ⟨_, _, -, rfl⟩ := h
  simp [Pool.notification, Message.isNotify]

theorem Work.jobId_of_notify {work : Work} {clean : Bool} {notify : Notify} (h : work.notify clean = .ok notify) :
    notify.jobId = work.jobId := by
  obtain ⟨-, rfl⟩ := Work.notify_eq_ok.1 h
  rfl

/-- A job is handed out with whatever word on the earlier jobs. -/
theorem Work.handedOutBy_of_build {template : BlockTemplate} {aux : Option AuxBlock} {chain : Chain}
    {signature script : Bytes} {reserved : Nat} {jobId : JobId} {work : Work} {notify : Notify}
    (h : Work.build (some template) aux chain signature script reserved jobId = .ok (work, notify)) (clean : Bool) :
    work.HandedOutBy (Pool.notification (notify.withClean clean)) := by
  obtain ⟨_, _, _, _, -, -, -, -, -, hnotify⟩ := Work.ofTemplate_eq_ok.1 (Work.build_eq_ok.1 h)
  obtain ⟨htime, rfl⟩ := Work.notify_eq_ok.1 hnotify
  exact ⟨clean, _, Work.notify_eq_ok.2 ⟨htime, rfl⟩, rfl⟩

/-! ### Steps -/

/-- How far a refresh is: there is none, its job is published, or some sessions are still to be told. -/
inductive Refreshing
  | idle
  | published (message : Message)
  | telling (message : Message) (ids : List SessionId)

namespace Refreshing

/-- The message that sessions are told. -/
def message? : Refreshing → Option Message
  | .idle => none
  | .published message => some message
  | .telling message _ => some message

/-- A session that is registered will still be told. -/
def WillTell (id : SessionId) : Refreshing → Prop
  | .idle => False
  | .published _ => True
  | .telling _ ids => id ∈ ids

end Refreshing

/-- How far an authorization is: what was done last. -/
inductive Authorizing
  | waiting
  | registered
  | answered
  | ready
  | looked (job : Option Message)
  | done

/-- The current job has not been looked at yet. -/
def Authorizing.WillLook : Authorizing → Prop
  | .waiting | .registered | .answered | .ready => True
  | .looked _ | .done => False

/-- A pool, the refresh that is under way in it, and a miner that is being authorized; `sent` holds what was
written to it, the latest first. -/
structure Handover (σ : Type) where
  pool : Pool σ
  refreshing : Refreshing
  authorizing : Authorizing
  sent : List Message

namespace Handover

variable {σ : Type}

/-- No refresh is under way, and the miner has not been authorized yet. -/
def start (pool : Pool σ) (sent : List Message) : Handover σ := ⟨pool, .idle, .waiting, sent⟩

/-- What can come next.  A refresh publishes the job of fetched templates, notes whom to tell in whatever order,
tells them one by one, and ends; an authorization registers the session, answers, gives the difficulty, looks at
the current job and gives it; then the miner is passed what waits for it. -/
inductive Event
  | publish (template : BlockTemplate) (aux : Option AuxBlock) (clean : Bool)
  | address (ids : List SessionId)
  | tell
  | finish
  | register
  | answer
  | giveDifficulty
  | look
  | giveJob
  | pass

/-- What comes of an event, if it can come next.  A job that cannot be built is not published, and one that
cannot be handed out ends the authorization. -/
def step? (session : Session) (id : Id) (s : Handover σ) : Event → Option (Handover σ)
  | .publish template aux clean =>
    match s.refreshing with
    | .idle =>
      match s.pool.takingId.buildWork template aux s.pool.jobs.takeId.1 with
      | .error _ => some { s with pool := s.pool.takingId }
      | .ok (work, notify) =>
        let (clean, pool) := s.pool.takingId.publish work clean
        some { s with pool, refreshing := .published (Pool.notification (notify.withClean clean)) }
    | _ => none
  | .address ids =>
    match s.refreshing with
    | .published message =>
      if ids.isPerm s.pool.registry.registered then some { s with refreshing := .telling message ids } else none
    | _ => none
  | .tell =>
    match s.refreshing with
    | .telling message (other :: ids) =>
      let registry := (s.pool.registry.post message other).2
      some { s with pool := { s.pool with registry }, refreshing := .telling message ids }
    | _ => none
  | .finish =>
    match s.refreshing with
    | .telling _ [] => some { s with refreshing := .idle }
    | _ => none
  | .register =>
    match s.authorizing with
    | .waiting => some { s with pool := s.pool.register session, authorizing := .registered }
    | _ => none
  | .answer =>
    match s.authorizing with
    | .registered => some { s with authorizing := .answered, sent := Message.result id (.bool true) :: s.sent }
    | _ => none
  | .giveDifficulty =>
    match s.authorizing with
    | .answered => some { s with authorizing := .ready, sent := s.pool.difficultyMessage :: s.sent }
    | _ => none
  | .look =>
    match s.authorizing, s.pool.jobs.current with
    | .ready, none => some { s with authorizing := .looked none }
    | .ready, some work =>
      match work.notify false with
      | .error _ => none
      | .ok notify => some { s with authorizing := .looked (some (Pool.notification notify)) }
    | _, _ => none
  | .giveJob =>
    match s.authorizing with
    | .looked job => some { s with authorizing := .done, sent := job.toList ++ s.sent }
    | _ => none
  | .pass =>
    match s.authorizing, s.pool.registry.receive session.id with
    | .done, (some message, registry) => some { s with pool := { s.pool with registry }, sent := message :: s.sent }
    | _, _ => none

/-- What comes of events in turn, if they can come in this order. -/
def run? (session : Session) (id : Id) (s : Handover σ) (es : List Event) : Option (Handover σ) :=
  es.foldlM (step? session id) s

/-- The outcomes of an event that can come next. -/
inductive Stepped (session : Session) (id : Id) (s : Handover σ) : Event → Handover σ → Prop
  | unbuilt {template : BlockTemplate} {aux : Option AuxBlock} {clean : Bool} (hidle : s.refreshing = .idle) :
      Stepped session id s (.publish template aux clean) { s with pool := s.pool.takingId }
  | published {template : BlockTemplate} {aux : Option AuxBlock} {clean : Bool} {work : Work} {message : Message}
      (hidle : s.refreshing = .idle) (hmessage : work.HandedOutBy message) :
      Stepped session id s (.publish template aux clean)
        { s with pool := (s.pool.takingId.publish work clean).2, refreshing := .published message }
  | addressed {ids : List SessionId} {message : Message} (hpublished : s.refreshing = .published message)
      (hids : ids.Perm s.pool.registry.registered) :
      Stepped session id s (.address ids) { s with refreshing := .telling message ids }
  | told {message : Message} {other : SessionId} {ids : List SessionId}
      (htelling : s.refreshing = .telling message (other :: ids)) :
      Stepped session id s .tell { s with
        pool := { s.pool with registry := (s.pool.registry.post message other).2 }
        refreshing := .telling message ids }
  | finished {message : Message} (htelling : s.refreshing = .telling message []) :
      Stepped session id s .finish { s with refreshing := .idle }
  | registered (hwaiting : s.authorizing = .waiting) :
      Stepped session id s .register { s with pool := s.pool.register session, authorizing := .registered }
  | answered (hregistered : s.authorizing = .registered) :
      Stepped session id s .answer
        { s with authorizing := .answered, sent := Message.result id (.bool true) :: s.sent }
  | gaveDifficulty (hanswered : s.authorizing = .answered) :
      Stepped session id s .giveDifficulty
        { s with authorizing := .ready, sent := s.pool.difficultyMessage :: s.sent }
  | lookedInVain (hready : s.authorizing = .ready) (hcurrent : s.pool.jobs.current = none) :
      Stepped session id s .look { s with authorizing := .looked none }
  | looked {work : Work} {message : Message} (hready : s.authorizing = .ready)
      (hcurrent : s.pool.jobs.current = some work) (hmessage : work.HandedOutBy message) :
      Stepped session id s .look { s with authorizing := .looked (some message) }
  | gaveJob {job : Option Message} (hlooked : s.authorizing = .looked job) :
      Stepped session id s .giveJob { s with authorizing := .done, sent := job.toList ++ s.sent }
  | passed {box : Mailbox} {message : Message} {rest : List Message} (hdone : s.authorizing = .done)
      (hbox : s.pool.registry.mailbox? session.id = some box) (hmessages : box.messages = message :: rest) :
      Stepped session id s .pass { s with
        pool := { s.pool with registry := s.pool.registry.setMailbox session.id { box with messages := rest } }
        sent := message :: s.sent }

variable {session : Session} {id : Id} {s s' : Handover σ} {e : Event} {es : List Event}

theorem stepped_of_step? (h : s.step? session id e = some s') : s.Stepped session id e s' := by
  cases e with
  | publish template aux clean =>
    simp only [step?] at h
    split at h
    · next hidle =>
      split at h
      · cases h
        exact .unbuilt hidle
      · next work notify hbuilt =>
        cases h
        exact .published hidle (Work.handedOutBy_of_build hbuilt _)
    · cases h
  | address ids =>
    simp only [step?] at h
    split at h
    · next message hpublished =>
      split at h
      · next hids =>
        cases h
        exact .addressed hpublished (List.isPerm_iff.1 hids)
      · cases h
    · cases h
  | tell =>
    simp only [step?] at h
    split at h
    · next htelling =>
      cases h
      exact .told htelling
    · cases h
  | finish =>
    simp only [step?] at h
    split at h
    · next htelling =>
      cases h
      exact .finished htelling
    · cases h
  | register =>
    simp only [step?] at h
    split at h
    · next hwaiting =>
      cases h
      exact .registered hwaiting
    · cases h
  | answer =>
    simp only [step?] at h
    split at h
    · next hregistered =>
      cases h
      exact .answered hregistered
    · cases h
  | giveDifficulty =>
    simp only [step?] at h
    split at h
    · next hanswered =>
      cases h
      exact .gaveDifficulty hanswered
    · cases h
  | look =>
    simp only [step?] at h
    split at h
    · next hready hcurrent =>
      cases h
      exact .lookedInVain hready hcurrent
    · next work hready hcurrent =>
      split at h
      · cases h
      · next notify hnotify =>
        cases h
        exact .looked hready hcurrent ⟨false, notify, hnotify, rfl⟩
    · cases h
  | giveJob =>
    simp only [step?] at h
    split at h
    · next hlooked =>
      cases h
      exact .gaveJob hlooked
    · cases h
  | pass =>
    simp only [step?] at h
    split at h
    · next hdone hreceive =>
      obtain ⟨box, rest, hbox, hmessages, rfl⟩ := Registry.receive_eq_some hreceive
      cases h
      exact .passed hdone hbox hmessages
    · cases h

theorem run?_cons_eq_some : s.run? session id (e :: es) = some s' ↔
    ∃ mid, s.step? session id e = some mid ∧ mid.run? session id es = some s' := by
  simp only [run?, List.foldlM_cons]
  exact Option.bind_eq_some_iff

theorem run?_append (s : Handover σ) (es es' : List Event) :
    s.run? session id (es ++ es') = (s.run? session id es).bind (·.run? session id es') :=
  List.foldlM_append

theorem step?_publish {template : BlockTemplate} {aux : Option AuxBlock} {work : Work} {notify : Notify}
    (hidle : s.refreshing = .idle) (hbuilt : s.pool.buildWork template aux s.pool.jobs.nextId = .ok (work, notify))
    (clean : Bool) :
    s.step? session id (.publish template aux clean) = some { s with
      pool := (s.pool.takingId.publish work clean).2
      refreshing :=
        .published (Pool.notification (notify.withClean (s.pool.takingId.publish work clean).1)) } := by
  have hbuilt' : s.pool.takingId.buildWork template aux s.pool.jobs.takeId.1 = .ok (work, notify) := hbuilt
  simp only [step?, hidle, hbuilt']

theorem step?_look {work : Work} {notify : Notify} (hready : s.authorizing = .ready)
    (hcurrent : s.pool.jobs.current = some work) (hnotify : work.notify false = .ok notify) :
    s.step? session id .look = some { s with authorizing := .looked (some (Pool.notification notify)) } := by
  simp only [step?, hready, hcurrent, hnotify]

/-! ### Steps that nothing comes between -/

private theorem run?_tell (pool : Pool σ) (message : Message) (ids : List SessionId) (authorizing : Authorizing)
    (sent : List Message) :
    run? session id ⟨pool, .telling message ids, authorizing, sent⟩ (ids.map fun _ => .tell) =
      some ⟨{ pool with registry := (Registry.postAll message ids pool.registry).2 },
        .telling message [], authorizing, sent⟩ := by
  induction ids generalizing pool with
  | nil => rfl
  | cons other ids ih =>
    rw [List.map_cons, run?_cons_eq_some]
    exact ⟨_, rfl, ih _⟩

/-- A refresh is a run of steps in a pool that differs only outwardly. -/
theorem exists_run?_refresh (session : Session) (id : Id) (pool : Pool σ) (clean : Bool) (authorizing : Authorizing)
    (sent : List Message) : ∃ q es, pool.Outward q ∧
      run? session id ⟨q, .idle, authorizing, sent⟩ es = some ⟨(pool.refresh clean).2, .idle, authorizing, sent⟩ := by
  have hrefreshed := pool.refresh_refreshed clean
  generalize pool.refresh clean = result at hrefreshed ⊢
  cases hrefreshed with
  | @unfetched _ q hq => exact ⟨q, [], hq, rfl⟩
  | @unbuilt template aux _ q hq hfailed =>
    refine ⟨q, [.publish template aux clean], hq, run?_cons_eq_some.2 ⟨_, ?_, rfl⟩⟩
    rw [← hq.buildWork, ← hq.jobs] at hfailed
    have hfailed' : q.takingId.buildWork template aux q.jobs.takeId.1 = .error _ := hfailed
    simp only [step?, hfailed']
  | @published template aux work notify q hq hbuilt =>
    refine ⟨q, .publish template aux clean :: .address q.registry.registered ::
      ((q.registry.registered.map fun _ => .tell) ++ [.finish]), hq, ?_⟩
    rw [← hq.buildWork, ← hq.jobs] at hbuilt
    refine run?_cons_eq_some.2 ⟨_, step?_publish rfl hbuilt clean, ?_⟩
    refine run?_cons_eq_some.2 ⟨_, if_pos (List.isPerm_iff.2 (.refl _)), ?_⟩
    rw [run?_append, run?_tell]
    rfl

/-- An authorization that succeeds is a run of steps, when the current job can be handed out. -/
theorem run?_authorize {pool q : Pool σ} {ip : Ip} {subscription : Subscription} {params : Json}
    {reaction : Reaction}
    (h : pool.authorize ip (.subscribed subscription) id params = (reaction, .authorized session, q))
    (hjob : ∀ work, pool.jobs.current = some work → ∃ notify, work.notify false = .ok notify)
    (refreshing : Refreshing) (sent : List Message) :
    run? session id ⟨pool, refreshing, .waiting, sent⟩ [.register, .answer, .giveDifficulty, .look, .giveJob] =
      some ⟨q, refreshing, .done, reaction.messages.reverse ++ sent⟩ := by
  have hdispatched := pool.authorize_dispatched ip (.subscribed subscription) id params
  rw [h] at hdispatched
  cases hdispatched with
  | authorized =>
    rcases hcurrent : pool.jobs.current with _ | work
    · simp [run?, step?, Pool.currentJob, Pool.register, hcurrent]
    · obtain ⟨notify, hnotify⟩ := hjob work hcurrent
      simp [run?, step?, Pool.currentJob, Pool.register, hcurrent, hnotify]

private theorem step?_pass {pool : Pool σ} {box : Mailbox} {message : Message} {rest : List Message}
    (hbox : pool.registry.mailbox? session.id = some box) (hmessages : box.messages = message :: rest)
    (refreshing : Refreshing) (sent : List Message) :
    step? session id ⟨pool, refreshing, .done, sent⟩ .pass = some ⟨{ pool with
      registry := pool.registry.setMailbox session.id { box with messages := rest } }, refreshing, .done,
      message :: sent⟩ := by
  simp only [step?, Registry.receive_of_mailbox? hbox hmessages]

private theorem run?_pass {pool : Pool σ} {box : Mailbox} {message : Message} {rest : List Message}
    (hbox : pool.registry.mailbox? session.id = some box) (hmessages : box.messages = message :: rest)
    (refreshing : Refreshing) (sent : List Message) :
    run? session id ⟨pool, refreshing, .done, sent⟩ ((message :: rest).map fun _ => .pass) = some ⟨{ pool with
      registry := pool.registry.setMailbox session.id { box with messages := [] } }, refreshing, .done,
      (message :: rest).reverse ++ sent⟩ := by
  induction rest generalizing pool box message sent with
  | nil => exact run?_cons_eq_some.2 ⟨_, step?_pass hbox hmessages refreshing sent, rfl⟩
  | cons next rest ih =>
    refine run?_cons_eq_some.2 ⟨_, step?_pass hbox hmessages refreshing sent, ?_⟩
    rw [ih (Registry.mailbox?_setMailbox _ _ _) rfl, Registry.setMailbox_setMailbox]
    simp

/-- The emptying of a mailbox is a run of steps. -/
theorem run?_deliver {c c' : Connection} {pool : Pool σ} {box : Mailbox} (hstage : c.stage = .authorized session)
    (hbox : pool.registry.mailbox? session.id = some box) (hwaits : box.messages ≠ [])
    (hwrite : c.write box.messages = (true, c')) (refreshing : Refreshing) :
    run? session id ⟨pool, refreshing, .done, c.sent⟩ (box.messages.map fun _ => .pass) =
      some ⟨(c.deliver pool).2, refreshing, .done, (c.deliver pool).1.sent⟩ := by
  obtain ⟨message, rest, hmessages⟩ := List.exists_cons_of_ne_nil hwaits
  have hsent := Connection.sent_of_write hwrite
  simp only [Connection.deliver, hstage, hbox, hwrite, hsent]
  rw [hmessages]
  exact run?_pass hbox hmessages refreshing c.sent

end Handover

end MergedMining
