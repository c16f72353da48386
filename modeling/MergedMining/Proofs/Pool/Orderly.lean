import MergedMining.Proofs.Pool.Handover

/-!
# What waits for the miners of a pool

A pool is orderly when nothing but jobs waits in its mailboxes and the current job can be handed out.  It starts
so, and whatever happens to it leaves it so (`Traffic.isOrderly_of_isFresh`).
-/

namespace MergedMining

open Stratum (Id Message Notify)

/-! ### Mailboxes -/

namespace Registry

variable {r : Registry}

/-- Nothing but jobs waits in the mailboxes. -/
def IsOrderly (r : Registry) : Prop := ∀ entry ∈ r.mailboxes, ∀ message ∈ entry.2.messages, message.isNotify = true

theorem IsOrderly.of_mailbox? (h : r.IsOrderly) {id : SessionId} {box : Mailbox} (hbox : r.mailbox? id = some box) :
    ∀ message ∈ box.messages, message.isNotify = true := by
  obtain ⟨before, after, hmailboxes, -⟩ := List.lookup_eq_some_iff.1 hbox
  exact h (id, box) (by rw [hmailboxes]; simp)

theorem IsOrderly.setMailbox (h : r.IsOrderly) (id : SessionId) {box : Mailbox}
    (hbox : ∀ message ∈ box.messages, message.isNotify = true) : (r.setMailbox id box).IsOrderly := by
  intro entry hentry
  rcases List.mem_cons.1 hentry with rfl | hother
  · exact hbox
  · exact h entry (List.mem_filter.1 hother).1

theorem IsOrderly.insert (h : r.IsOrderly) (id : SessionId) (capacity : Nat) : (r.insert id capacity).IsOrderly := by
  have hset : (r.setMailbox id ⟨[], capacity⟩).IsOrderly := h.setMailbox id nofun
  exact hset

theorem IsOrderly.removeClose (h : r.IsOrderly) (id : SessionId) : ((r.remove id).close id).IsOrderly :=
  fun entry hentry => h entry (List.mem_filter.1 hentry).1

theorem IsOrderly.post (h : r.IsOrderly) {message : Message} (hnotify : message.isNotify = true) (id : SessionId) :
    (r.post message id).2.IsOrderly := by
  unfold Registry.post
  split
  · exact h
  · next box hbox =>
    split
    · refine h.setMailbox id fun other hother => ?_
      rcases List.mem_append.1 hother with hold | hnew
      · exact h.of_mailbox? hbox other hold
      · rwa [List.mem_singleton.1 hnew]
    · exact h

theorem IsOrderly.postAll (h : r.IsOrderly) {message : Message} (hnotify : message.isNotify = true)
    (ids : List SessionId) : (Registry.postAll message ids r).2.IsOrderly := by
  induction ids generalizing r with
  | nil => exact h
  | cons id ids ih => exact ih (h.post hnotify id)

theorem IsOrderly.receive (h : r.IsOrderly) {id : SessionId} {message : Message} {r' : Registry}
    (hreceive : r.receive id = (some message, r')) : message.isNotify = true ∧ r'.IsOrderly := by
  obtain ⟨box, rest, hbox, hmessages, rfl⟩ := receive_eq_some hreceive
  have hwaiting := h.of_mailbox? hbox
  rw [hmessages] at hwaiting
  exact ⟨hwaiting message List.mem_cons_self,
    h.setMailbox id fun other hother => hwaiting other (List.mem_cons_of_mem message hother)⟩

end Registry

/-! ### Pools -/

namespace Pool

variable {σ : Type} {p q : Pool σ}

/-- Nothing but jobs waits in the mailboxes, and the current job can be handed out. -/
structure IsOrderly (p : Pool σ) : Prop where
  registry : p.registry.IsOrderly
  current : ∀ work, p.jobs.current = some work → ∃ notify, work.notify false = .ok notify

theorem IsFresh.isOrderly (h : p.IsFresh) : p.IsOrderly := by
  refine ⟨?_, ?_⟩
  · rw [h.registry]
    exact nofun
  · rw [h.jobs]
    exact nofun

theorem IsOrderly.withBans (h : p.IsOrderly) (bans : Bans) : { p with bans }.IsOrderly := ⟨h.registry, h.current⟩

theorem IsOrderly.of_outward (h : p.IsOrderly) (hq : p.Outward q) : q.IsOrderly := by
  obtain ⟨_, _, _, _, rfl, -, -⟩ := hq
  exact ⟨h.registry, h.current⟩

/-- A job that can be built can be handed out, with whatever word on the earlier jobs. -/
private theorem exists_notify_of_buildWork {template : BlockTemplate} {aux : Option AuxBlock} {id : Stratum.JobId}
    {work : Work} {notify : Notify} (h : p.buildWork template aux id = .ok (work, notify)) :
    ∃ notify, work.notify false = .ok notify := by
  obtain ⟨_, notify, hnotify, -⟩ := Work.handedOutBy_of_build h false
  obtain ⟨htime, -⟩ := Work.notify_eq_ok.1 hnotify
  exact ⟨_, Work.notify_eq_ok.2 ⟨htime, rfl⟩⟩

theorem IsOrderly.refresh (h : p.IsOrderly) (clean : Bool) : (p.refresh clean).2.IsOrderly := by
  have hrefreshed := p.refresh_refreshed clean
  generalize p.refresh clean = result at hrefreshed
  cases hrefreshed with
  | unfetched hq => exact h.of_outward hq
  | unbuilt hq => exact ⟨(h.of_outward hq).registry, (h.of_outward hq).current⟩
  | published hq hbuilt =>
    have hregistry := (h.of_outward hq).registry
    refine ⟨hregistry.postAll (by simp [notification, Message.isNotify]) _, fun work hwork => ?_⟩
    cases hwork
    exact exists_notify_of_buildWork hbuilt

theorem IsOrderly.dispatched (h : p.IsOrderly) {ip : Ip} {stage : Stage} {id : Id} {method : String} {params : Json}
    {result : Reaction × Stage × Pool σ} (hdispatched : p.Dispatched ip stage id method params result) :
    result.2.2.IsOrderly := by
  cases hdispatched with
  | answered => exact h
  | exhausted => exact ⟨h.registry, h.current⟩
  | subscribed => exact ⟨h.registry, h.current⟩
  | authorized => exact ⟨h.registry.insert _ _, h.current⟩
  | submitted _ hsubmitted =>
    cases hsubmitted with
    | turnedAway => exact h
    | duplicate => exact ⟨h.registry, h.current⟩
    | refused => exact ⟨h.registry, h.current⟩
    | counted _ _ _ _ _ hq =>
      refine IsOrderly.of_outward ⟨?_, ?_⟩ hq
      · exact h.registry
      · exact h.current

end Pool

/-! ### Connections -/

namespace Connection

variable {σ : Type} {p : Pool σ}

theorem isOrderly_finish (h : p.IsOrderly) (c : Connection) (ending : Ending) : (c.finish p ending).2.IsOrderly := by
  refine ⟨?_, h.current⟩
  unfold finish
  dsimp only
  split
  · exact h.registry
  · exact h.registry.removeClose _

theorem isOrderly_deliver (h : p.IsOrderly) (c : Connection) : (c.deliver p).2.IsOrderly := by
  unfold deliver
  split
  · split
    · exact h
    · split
      · exact ⟨h.registry.setMailbox _ nofun, h.current⟩
      · exact isOrderly_finish h _ _
  · exact h

theorem isOrderly_answer [Store σ] (h : p.IsOrderly) (c : Connection) (now : Nat) (id : Id) (method : String)
    (params : Json) : (c.answer p now id method params).2.IsOrderly := by
  have hdispatched := h.dispatched (p.dispatch_dispatched c.ip c.stage id method params)
  unfold answer
  dsimp only
  split
  · exact isOrderly_finish hdispatched _ _
  · split
    · exact hdispatched
    · exact isOrderly_finish hdispatched _ _

theorem isOrderly_handleLine [Store σ] (h : p.IsOrderly) (c : Connection) (now : Nat) (text : String) :
    (c.handleLine p now text).2.IsOrderly := by
  rcases hrequest : Traffic.request? text with _ | ⟨id, method, params⟩
  · rcases c.handleLine_eq_of_no_request p now hrequest with heq | ⟨bans, heq⟩
    · rwa [heq]
    · rw [heq]
      exact isOrderly_finish (h.withBans bans) c .inOrder
  · rw [c.handleLine_of_request p now hrequest]
    exact isOrderly_answer h c now id method params

end Connection

/-! ### Runs -/

namespace Traffic

variable {σ : Type} {t : Traffic σ}

private theorem isOrderly_act (h : t.pool.IsOrderly) (place : Nat) {f : Connection → Pool σ → Connection × Pool σ}
    (hf : ∀ c, (f c t.pool).2.IsOrderly) : (t.act place f).pool.IsOrderly := by
  unfold act
  split
  · exact h
  · next c hc => exact hf c

theorem isOrderly_step [Store σ] (h : t.pool.IsOrderly) (e : Event) : (t.step e).pool.IsOrderly := by
  cases e with
  | connect => exact h
  | line place now text => exact isOrderly_act h place fun c => c.isOrderly_handleLine h now text
  | flood place => exact isOrderly_act h place fun c => c.isOrderly_finish (h.withBans _) .inOrder
  | finish place ending => exact isOrderly_act h place fun c => c.isOrderly_finish h ending
  | limit place => exact isOrderly_act h place fun _ => h
  | deliver place => exact isOrderly_act h place fun c => c.isOrderly_deliver h
  | refresh clean => exact h.refresh clean
  | flush => exact ⟨h.registry, h.current⟩
  | recover chain => exact h.of_outward (Service.recover_outward t.pool chain)
  | stopRecovery => exact h.of_outward (Service.stopRecovery_outward t.pool)

/-- A pool stays orderly whatever happens to it. -/
theorem isOrderly_run [Store σ] (h : t.pool.IsOrderly) (es : List Event) : (t.run es).pool.IsOrderly := by
  induction es generalizing t with
  | nil => exact h
  | cons e es ih => exact ih (isOrderly_step h e)

/-- Whatever happened to a pool since its start, it is orderly. -/
theorem isOrderly_of_isFresh [Store σ] {p : Pool σ} (h : p.IsFresh) (es : List Event) :
    ((ofPool p).run es).pool.IsOrderly :=
  isOrderly_run (t := ofPool p) h.isOrderly es

end Traffic

end MergedMining
