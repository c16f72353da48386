import MergedMining.Proofs.Pool.Handover
import MergedMining.Proofs.Pool.Steady

/-!
# The miner always ends up on the current job

A job is published before anybody is told of it, and a session is registered before the current job is looked at
for it.  So whatever is current has been sent to a miner that joins, waits in its mailbox, or is still to be
looked at or told (`sound_run?`), and when nothing is left to do, the miner works on the current job
(`last_notify_current`).
-/

namespace MergedMining

open Stratum (Id Message)

namespace Handover

variable {σ : Type} {session : Session} {id : Id} {s s' : Handover σ} {e : Event} {es : List Event}

/-! ### Where the current job is -/

/-- A job has been sent to a miner as the last one, or is on its way there: it will be told, or waits as the
last message in the mailbox, or nothing waits there and it will be looked at or was looked at. -/
inductive Reaching (refreshing : Refreshing) (authorizing : Authorizing) (sent : List Message) (id : SessionId)
    (messages : List Message) (work : Work) : Prop
  | told (htell : refreshing.WillTell id)
  | queued {message : Message} (hlast : messages.getLast? = some message) (hmessage : work.HandedOutBy message)
  | unread (hempty : messages = []) (hlook : authorizing.WillLook)
  | read {message : Message} (hempty : messages = []) (hlooked : authorizing = .looked (some message))
      (hmessage : work.HandedOutBy message)
  | sent {message : Message} (hempty : messages = []) (hdone : authorizing = .done)
      (hsent : sent.find? Message.isNotify = some message) (hmessage : work.HandedOutBy message)

namespace Reaching

variable {refreshing refreshing' : Refreshing} {authorizing authorizing' : Authorizing} {sent : List Message}
  {own : SessionId} {messages : List Message} {work : Work}

/-- A refresh goes on without telling this session. -/
theorem refresh (h : Reaching refreshing authorizing sent own messages work)
    (htell : refreshing.WillTell own → refreshing'.WillTell own) :
    Reaching refreshing' authorizing sent own messages work := by
  cases h with
  | told hwill => exact .told (htell hwill)
  | queued hlast hmessage => exact .queued hlast hmessage
  | unread hempty hlook => exact .unread hempty hlook
  | read hempty hlooked hmessage => exact .read hempty hlooked hmessage
  | sent hempty hdone hsent hmessage => exact .sent hempty hdone hsent hmessage

/-- An authorization goes on before it looks at the current job. -/
theorem unlooked (h : Reaching refreshing authorizing sent own messages work) (hlook : authorizing.WillLook)
    (hlook' : authorizing'.WillLook) (sent' : List Message) :
    Reaching refreshing authorizing' sent' own messages work := by
  cases h with
  | told hwill => exact .told hwill
  | queued hlast hmessage => exact .queued hlast hmessage
  | unread hempty => exact .unread hempty hlook'
  | read _ hlooked =>
    rw [hlooked] at hlook
    cases hlook
  | sent _ hdone =>
    rw [hdone] at hlook
    cases hlook

theorem look (h : Reaching refreshing .ready sent own messages work) {message : Message}
    (hmessage : work.HandedOutBy message) : Reaching refreshing (.looked (some message)) sent own messages work := by
  cases h with
  | told hwill => exact .told hwill
  | queued hlast hmessage => exact .queued hlast hmessage
  | unread hempty => exact .read hempty rfl hmessage
  | read _ hlooked => cases hlooked
  | sent _ hdone => cases hdone

theorem give {job : Option Message} (h : Reaching refreshing (.looked job) sent own messages work) :
    Reaching refreshing .done (job.toList ++ sent) own messages work := by
  cases h with
  | told hwill => exact .told hwill
  | queued hlast hmessage => exact .queued hlast hmessage
  | unread _ hlook => cases hlook
  | read hempty hlooked hmessage =>
    cases hlooked
    exact .sent hempty rfl (List.find?_cons_of_pos hmessage.isNotify) hmessage
  | sent _ hdone => cases hdone

theorem pass {message : Message} (h : Reaching refreshing .done sent own (message :: messages) work) :
    Reaching refreshing .done (message :: sent) own messages work := by
  cases h with
  | told hwill => exact .told hwill
  | queued hlast hmessage =>
    -- the last message that waits stays the last one, unless it is the one that is passed
    rcases messages with _ | ⟨next, rest⟩
    · cases hlast
      exact .sent rfl rfl (List.find?_cons_of_pos hmessage.isNotify) hmessage
    · exact .queued hlast hmessage
  | unread hempty => cases hempty
  | read hempty => cases hempty
  | sent hempty => cases hempty

end Reaching

/-- A refresh tells of the current job, and once the miner is registered the current job is on its way to it. -/
structure Sound (session : Session) (s : Handover σ) : Prop where
  message : ∀ message, s.refreshing.message? = some message →
    ∃ work, s.pool.jobs.current = some work ∧ work.HandedOutBy message
  registered : s.authorizing ≠ .waiting → ∃ box, session.id ∈ s.pool.registry.registered ∧
    s.pool.registry.mailbox? session.id = some box ∧ ∀ work, s.pool.jobs.current = some work →
      Reaching s.refreshing s.authorizing s.sent session.id box.messages work

/-- There is room for one more message in the mailbox of a session, if it has one. -/
def HasRoom (session : Session) (s : Handover σ) : Prop :=
  ∀ box, s.pool.registry.mailbox? session.id = some box → box.messages.length < box.capacity

theorem sound_start (session : Session) (pool : Pool σ) (sent : List Message) : (start pool sent).Sound session :=
  ⟨fun _ => nofun, fun hwaiting => absurd rfl hwaiting⟩

private theorem Sound.reaching (h : s.Sound session) {authorizing : Authorizing} (hs : s.authorizing = authorizing)
    (hne : authorizing ≠ .waiting) : ∃ box, session.id ∈ s.pool.registry.registered ∧
      s.pool.registry.mailbox? session.id = some box ∧ ∀ work, s.pool.jobs.current = some work →
        Reaching s.refreshing authorizing s.sent session.id box.messages work := by
  subst hs
  exact h.registered hne

/-- What a refresh tells is the current job, for nothing else is published before it has ended. -/
private theorem message_step (h : s.Sound session) (hstep : s.Stepped session id e s') :
    ∀ message, s'.refreshing.message? = some message →
      ∃ work, s'.pool.jobs.current = some work ∧ work.HandedOutBy message := by
  cases hstep with
  | published _ hmessage =>
    intro message heq
    cases heq
    exact ⟨_, rfl, hmessage⟩
  | addressed hpublished =>
    intro message heq
    exact h.message message (by rw [hpublished]; exact heq)
  | told htelling =>
    intro message heq
    exact h.message message (by rw [htelling]; exact heq)
  | finished => exact fun _ => nofun
  | _ => exact h.message

theorem Sound.step (h : s.Sound session) (hroom : s.HasRoom session) (hstep : s.Stepped session id e s') :
    s'.Sound session := by
  refine ⟨message_step h hstep, fun hregistered => ?_⟩
  cases hstep with
  | unbuilt => exact h.registered hregistered
  | published =>
    -- the job before is forgotten, and every registered session will be told of the new one
    obtain ⟨box, hmem, hbox, -⟩ := h.registered hregistered
    exact ⟨box, hmem, hbox, fun _ _ => .told trivial⟩
  | addressed _ hids =>
    obtain ⟨box, hmem, hbox, -⟩ := h.registered hregistered
    exact ⟨box, hmem, hbox, fun _ _ => .told (hids.mem_iff.2 hmem)⟩
  | @told message other ids htelling =>
    obtain ⟨box, hmem, hbox, hreaching⟩ := h.registered hregistered
    by_cases hself : session.id = other
    -- what this session is told is the current job, and there is room for it behind all that waits
    · subst hself
      obtain ⟨work, hcurrent, hmessage⟩ := h.message message (by rw [htelling]; rfl)
      refine ⟨{ box with messages := box.messages ++ [message] }, ?_, ?_, fun work' hcurrent' => ?_⟩
      · rw [Registry.post_of_mailbox? hbox (hroom box hbox)]
        exact hmem
      · rw [Registry.post_of_mailbox? hbox (hroom box hbox)]
        exact Registry.mailbox?_setMailbox _ _ _
      · obtain rfl := Option.some.inj (hcurrent.symm.trans hcurrent')
        exact .queued (List.getLast?_concat) hmessage
    · refine ⟨box, Registry.mem_registered_post_of_ne hself hmem _, ?_, fun work hcurrent => ?_⟩
      · rw [Registry.mailbox?_post_of_ne hself]
        exact hbox
      · refine (hreaching work hcurrent).refresh fun hwill => ?_
        rw [htelling] at hwill
        exact (List.mem_cons.1 hwill).resolve_left hself
  | finished htelling =>
    obtain ⟨box, hmem, hbox, hreaching⟩ := h.registered hregistered
    refine ⟨box, hmem, hbox, fun work hcurrent => (hreaching work hcurrent).refresh fun hwill => ?_⟩
    rw [htelling] at hwill
    cases hwill
  | registered =>
    -- whoever is told from now on is told behind this moment, and the job before it is looked at later
    exact ⟨_, Registry.mem_registered_insert _ _ _, Registry.mailbox?_insert _ _ _, fun _ _ => .unread rfl trivial⟩
  | answered hbefore =>
    obtain ⟨box, hmem, hbox, hreaching⟩ := h.reaching hbefore nofun
    exact ⟨box, hmem, hbox, fun work hcurrent => (hreaching work hcurrent).unlooked trivial (by trivial) _⟩
  | gaveDifficulty hbefore =>
    obtain ⟨box, hmem, hbox, hreaching⟩ := h.reaching hbefore nofun
    exact ⟨box, hmem, hbox, fun work hcurrent => (hreaching work hcurrent).unlooked trivial (by trivial) _⟩
  | lookedInVain hbefore hnone =>
    obtain ⟨box, hmem, hbox, -⟩ := h.reaching hbefore nofun
    refine ⟨box, hmem, hbox, fun work hcurrent => ?_⟩
    rw [hnone] at hcurrent
    cases hcurrent
  | looked hbefore hjob hmessage =>
    obtain ⟨box, hmem, hbox, hreaching⟩ := h.reaching hbefore nofun
    refine ⟨box, hmem, hbox, fun work hcurrent => ?_⟩
    obtain rfl := Option.some.inj (hjob.symm.trans hcurrent)
    exact (hreaching _ hcurrent).look hmessage
  | gaveJob hbefore =>
    obtain ⟨box, hmem, hbox, hreaching⟩ := h.reaching hbefore nofun
    exact ⟨box, hmem, hbox, fun work hcurrent => (hreaching work hcurrent).give⟩
  | passed hdone hbox hmessages =>
    obtain ⟨box, hmem, hsame, hreaching⟩ := h.registered hregistered
    obtain rfl := Option.some.inj (hbox.symm.trans hsame)
    rw [hdone, hmessages] at hreaching
    refine ⟨_, hmem, Registry.mailbox?_setMailbox _ _ _, fun work hcurrent => ?_⟩
    rw [hdone]
    exact (hreaching work hcurrent).pass

theorem sound_run? (h : s.Sound session)
    (hroom : ∀ before after mid, es = before ++ after → s.run? session id before = some mid → mid.HasRoom session)
    (hrun : s.run? session id es = some s') : s'.Sound session := by
  induction es generalizing s with
  | nil =>
    cases hrun
    exact h
  | cons e es ih =>
    obtain ⟨mid, hstep, hrest⟩ := run?_cons_eq_some.1 hrun
    have hnow : s.HasRoom session := hroom [] (e :: es) s rfl rfl
    refine ih (h.step hnow (stepped_of_step? hstep)) (fun before after later hes hlater => ?_) hrest
    exact hroom (e :: before) after later (by rw [hes]; rfl) (run?_cons_eq_some.2 ⟨mid, hstep, hlater⟩)

/-! ### Mailboxes that are never full -/

/-- How many sessions are told at events. -/
def tells (es : List Event) : Nat := es.countP fun e => e matches .tell

/-- The mailbox of a session, if it has one, is of the usual size and holds at most this many messages. -/
def HoldsAtMost (session : Session) (s : Handover σ) (n : Nat) : Prop :=
  ∀ box, s.pool.registry.mailbox? session.id = some box →
    box.capacity = Pool.mailboxCapacity ∧ box.messages.length ≤ n

theorem HoldsAtMost.step {n : Nat} (h : s.HoldsAtMost session n) (hstep : s.Stepped session id e s') :
    s'.HoldsAtMost session (n + tells [e]) := by
  intro box hbox
  cases hstep with
  | @told message other =>
    by_cases hself : session.id = other
    · subst hself
      obtain ⟨old, hold, hcapacity, hlength⟩ := Registry.length_le_of_mailbox?_post hbox
      obtain ⟨husual, hfew⟩ := h old hold
      exact ⟨hcapacity.trans husual, Nat.le_trans hlength (Nat.succ_le_succ hfew)⟩
    · rw [Registry.mailbox?_post_of_ne hself] at hbox
      obtain ⟨husual, hfew⟩ := h box hbox
      exact ⟨husual, Nat.le_succ_of_le hfew⟩
  | registered =>
    obtain rfl := Option.some.inj ((Registry.mailbox?_insert _ _ _).symm.trans hbox)
    exact ⟨rfl, Nat.zero_le _⟩
  | @passed old message rest _ hold hmessages =>
    obtain rfl := Option.some.inj ((Registry.mailbox?_setMailbox _ _ _).symm.trans hbox)
    obtain ⟨husual, hfew⟩ := h old hold
    rw [hmessages] at hfew
    exact ⟨husual, Nat.le_of_succ_le hfew⟩
  | _ => exact h box hbox

theorem holdsAtMost_run? {n : Nat} (h : s.HoldsAtMost session n) (hrun : s.run? session id es = some s') :
    s'.HoldsAtMost session (n + tells es) := by
  induction es generalizing s n with
  | nil =>
    cases hrun
    exact h
  | cons e es ih =>
    obtain ⟨mid, hstep, hrest⟩ := run?_cons_eq_some.1 hrun
    have hlater := ih (h.step (stepped_of_step? hstep)) hrest
    rwa [Nat.add_assoc, show tells [e] + tells es = tells (e :: es) from List.countP_append.symm] at hlater

/-- A mailbox is never full when fewer sessions are told than it has room for messages. -/
theorem hasRoom_of_tells_lt {pool : Pool σ} {sent : List Message} (hnone : pool.registry.mailbox? session.id = none)
    (hfew : tells es < Pool.mailboxCapacity) {before after : List Event} {mid : Handover σ}
    (hes : es = before ++ after) (hrun : (start pool sent).run? session id before = some mid) :
    mid.HasRoom session := by
  intro box hbox
  have hstart : (start pool sent).HoldsAtMost session 0 := by
    intro box' hbox'
    rw [show (start pool sent).pool.registry = pool.registry from rfl, hnone] at hbox'
    cases hbox'
  obtain ⟨husual, hheld⟩ := holdsAtMost_run? hstart hrun box hbox
  have hprefix : tells es = tells before + tells after := by
    rw [hes]
    exact List.countP_append
  omega

/-! ### The last job that was sent -/

/-- However the steps of an authorization come between those of refreshes, as long as the mailbox of the miner
is never full: when no refresh is under way, the authorization is done and the mailbox is empty, the last job
that was sent to the miner is the current one. -/
theorem last_notify_current {pool : Pool σ} {sent : List Message} {work : Work}
    (hrun : (start pool sent).run? session id es = some s')
    (hroom : ∀ before after mid, es = before ++ after → (start pool sent).run? session id before = some mid →
      mid.HasRoom session)
    (hidle : s'.refreshing = .idle) (hdone : s'.authorizing = .done)
    (hdrained : ∀ box, s'.pool.registry.mailbox? session.id = some box → box.messages = [])
    (hcurrent : s'.pool.jobs.current = some work) :
    ∃ clean notify, work.notify clean = .ok notify ∧ notify.jobId = work.jobId ∧
      s'.sent.find? Message.isNotify = some (Pool.notification notify) := by
  obtain ⟨box, -, hbox, hreaching⟩ :=
    (sound_run? (sound_start session pool sent) hroom hrun).registered (by rw [hdone]; nofun)
  have hreached := hreaching work hcurrent
  rw [hidle, hdone, hdrained box hbox] at hreached
  cases hreached with
  | told hwill => cases hwill
  | queued hlast => cases hlast
  | unread _ hlook => cases hlook
  | read _ hlooked => cases hlooked
  | sent _ _ hsent hmessage =>
    obtain ⟨clean, notify, hnotify, rfl⟩ := hmessage
    exact ⟨clean, notify, hnotify, Work.jobId_of_notify hnotify, hsent⟩

/-- A job is published while the miner of the sample joins, which looks at it before it is told of it. -/
def sampleRace : List Event :=
  [.register, .answer, .giveDifficulty] ++ .publish sampleTemplate none true :: .look ::
    [.address [0], .tell, .giveJob, .finish, .pass]

private theorem exists_run?_sampleRace : ∃ s, (start samplePool []).run? sampleSession .null sampleRace = some s ∧
    s.refreshing = .idle ∧ s.authorizing = .done ∧
    (∀ box, s.pool.registry.mailbox? 0 = some box → box.messages = []) ∧ ∃ work, s.pool.jobs.current = some work := by
  obtain ⟨work, notify, hwork⟩ := exists_sampleWork
  have hbuilt := Work.ofTemplate_withId ⟨0⟩ (Work.build_eq_ok.1 hwork)
  obtain ⟨_, _, _, _, -, -, -, -, -, hnotify⟩ := Work.ofTemplate_eq_ok.1 hbuilt
  have hpublish : ∀ sent, step? sampleSession .null ⟨samplePool.register sampleSession, .idle, .ready, sent⟩
      (.publish sampleTemplate none true) = _ :=
    fun _ => step?_publish rfl (Work.build_eq_ok.2 hbuilt) true
  refine ⟨_, (run?_append _ _ _).trans (run?_cons_eq_some.2 ⟨_, hpublish _, run?_cons_eq_some.2
    ⟨_, step?_look rfl rfl hnotify, rfl⟩⟩), rfl, rfl, fun box hbox => ?_, _, rfl⟩
  cases hbox
  rfl

theorem last_notify_current_sample : ∃ s work clean notify,
    (start samplePool []).run? sampleSession .null sampleRace = some s ∧ s.refreshing = .idle ∧
      s.authorizing = .done ∧ s.pool.jobs.current = some work ∧ work.notify clean = .ok notify ∧
      notify.jobId = work.jobId ∧ s.sent.find? Message.isNotify = some (Pool.notification notify) := by
  obtain ⟨s, hrun, hidle, hdone, hdrained, work, hcurrent⟩ := exists_run?_sampleRace
  have hroom : ∀ before after mid, sampleRace = before ++ after →
      (start samplePool []).run? sampleSession .null before = some mid → mid.HasRoom sampleSession :=
    fun _ _ _ hes => hasRoom_of_tells_lt rfl (by decide) hes
  obtain ⟨clean, notify, hnotify, hid, hsent⟩ := last_notify_current hrun hroom hidle hdone hdrained hcurrent
  exact ⟨s, work, clean, notify, hrun, hidle, hdone, hcurrent, hnotify, hid, hsent⟩

end Handover

end MergedMining
