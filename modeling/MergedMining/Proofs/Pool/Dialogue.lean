import MergedMining.Proofs.Pool.Orderly
import MergedMining.Proofs.Pool.Replies

/-!
# A miner is answered while the pool goes on

A connection takes one line at a time and writes the messages of the reply one by one, and the pool may go on
with anything else before each of them.  A message that waits in the mailbox is written only when no reply is
under way.  `Dialogue` is a connection moved in such steps.  A line that nothing comes between is handled by
steps in a row (`exists_run?_handleLine`), and so is a mailbox emptied (`exists_run?_deliver`).
-/

namespace MergedMining

open Stratum (Id Message)

/-! ### Replies -/

namespace Connection

variable {σ : Type}

theorem write_append (c : Connection) (ms rest : List Message) :
    c.write (ms ++ rest) = if (c.write ms).1 then (c.write ms).2.write rest else c.write ms := by
  fun_induction Connection.write c ms with
  | case1 => rfl
  | case2 _ _ _ hroom ih =>
    rw [List.cons_append, write, hroom]
    rwa [hroom] at ih
  | case3 _ _ _ hroom =>
    rw [List.cons_append, write, hroom]
    rfl
  | case4 _ _ _ _ hroom ih =>
    rw [List.cons_append, write, hroom]
    exact ih

/-- Writes a whole reply. -/
def giveReply (c : Connection) (p : Pool σ) (ms : List Message) (stays : Bool) (now : Nat) : Connection × Pool σ :=
  match c.write ms with
  | (false, c) => c.finish p .broken
  | (true, c) =>
    if stays then ({ c with deadline := now + p.settings.connectionTimeout }, p) else c.finish p .inOrder

theorem giveReply_nil (c : Connection) (p : Pool σ) (stays : Bool) (now : Nat) :
    c.giveReply p [] stays now =
      if stays then ({ c with deadline := now + p.settings.connectionTimeout }, p) else c.finish p .inOrder := rfl

theorem giveReply_append (c : Connection) (p : Pool σ) (ms rest : List Message) (stays : Bool) (now : Nat) :
    c.giveReply p (ms ++ rest) stays now =
      if (c.write ms).1 then (c.write ms).2.giveReply p rest stays now else (c.write ms).2.finish p .broken := by
  rw [giveReply, write_append]
  rcases c.write ms with ⟨_ | _, c'⟩ <;> rfl

theorem answer_eq_giveReply [Store σ] (c : Connection) (p : Pool σ) (now : Nat) (id : Id) (method : String)
    (params : Json) {reaction : Reaction} {stage : Stage} {q : Pool σ}
    (h : p.dispatch c.ip c.stage id method params = (reaction, stage, q)) :
    c.answer p now id method params =
      { c with stage }.giveReply q reaction.messages reaction.stays now := by
  rw [answer, h]
  rfl

/-! ### Mailboxes -/

/-- The mailbox of a connection that ends does not matter. -/
private theorem finish_setMailbox {c : Connection} {id : SessionId} (hid : c.stage.sessionId? = some id) (p : Pool σ)
    (box : Mailbox) (ending : Ending) :
    c.finish { p with registry := p.registry.setMailbox id box } ending = c.finish p ending := by
  have hclose : ((p.registry.setMailbox id box).remove id).close id = (p.registry.remove id).close id := by
    simp [Registry.close, Registry.remove, Registry.setMailbox, Registry.otherMailboxes]
  simp only [finish, hid, hclose]

private theorem deliver_of_mailbox? {c : Connection} {p : Pool σ} {session : Session} {box : Mailbox}
    (hstage : c.stage = .authorized session) (hbox : p.registry.mailbox? session.id = some box) :
    c.deliver p = if (c.write box.messages).1 then
        ((c.write box.messages).2,
          { p with registry := p.registry.setMailbox session.id { box with messages := [] } })
      else (c.write box.messages).2.finish p .broken := by
  simp only [deliver, hstage, hbox]
  rcases c.write box.messages with ⟨_ | _, c'⟩ <;> rfl

/-- The messages of a mailbox may be passed on one by one. -/
private theorem deliver_cons {c : Connection} {p : Pool σ} {session : Session} {box : Mailbox} {message : Message}
    {rest : List Message} (hstage : c.stage = .authorized session)
    (hbox : p.registry.mailbox? session.id = some box) (hmessages : box.messages = message :: rest) :
    c.deliver p =
      if (c.write [message]).1 then (c.write [message]).2.deliver { p with
        registry := p.registry.setMailbox session.id { box with messages := rest } }
      else (c.write [message]).2.finish { p with
        registry := p.registry.setMailbox session.id { box with messages := rest } } .broken := by
  have hstage' := (c.stage_write [message]).trans hstage
  have hstage'' := ((c.write [message]).2.stage_write rest).trans hstage'
  rw [deliver_of_mailbox? hstage hbox, hmessages, ← List.singleton_append, write_append,
    deliver_of_mailbox? hstage' (Registry.mailbox?_setMailbox _ _ _), Registry.setMailbox_setMailbox,
    finish_setMailbox (by rw [hstage'']; rfl), finish_setMailbox (by rw [hstage']; rfl)]
  by_cases hfirst : (c.write [message]).1 = true
  · simp only [if_pos hfirst]
  · simp only [if_neg hfirst]

end Connection

/-! ### Steps -/

/-- A reply that is under way: the messages that are still to be written, whether the current job is then looked
at and written too, and what becomes of the connection at the end. -/
structure Reply where
  owed : List Message
  looks : Bool
  stays : Bool
  now : Nat

/-- A connection, the reply that is under way on it, and the pool; `looked` holds what was the current job
whenever it was looked at, the latest first. -/
structure Dialogue (σ : Type) where
  pool : Pool σ
  connection : Connection
  reply : Option Reply
  looked : List (Option Work)

namespace Dialogue

variable {σ : Type}

/-- No reply is under way. -/
def start (pool : Pool σ) (c : Connection) : Dialogue σ := ⟨pool, c, none, []⟩

/-- What can come next.  A line is taken; the connection goes on with its reply; it is passed a message that
waits for it; it is closed, for the miner left, was silent for too long or sent too long a line, or the pool
stops; and meanwhile the pool became another. -/
inductive Event (σ : Type)
  | line (now : Nat) (text : String)
  | reply
  | pass
  | close
  | meanwhile (pool : Pool σ)

/-- The connection is open, and no reply is under way. -/
def IsIdle (d : Dialogue σ) : Prop := d.reply = none ∧ d.connection.ended = none

instance (d : Dialogue σ) : Decidable d.IsIdle :=
  decidable_of_iff (d.reply.isNone = true ∧ d.connection.ended.isNone = true) (by simp [IsIdle])

/-- No reply is under way after what was done. -/
def concluded (result : Connection × Pool σ) (looked : List (Option Work)) : Dialogue σ :=
  ⟨result.2, result.1, none, looked⟩

/-- A request is handled, and its reply is under way. -/
def ask [Store σ] (d : Dialogue σ) (now : Nat) (id : Id) (method : String) (params : Json) : Dialogue σ :=
  let (reaction, stage, pool) := d.pool.dispatch d.connection.ip d.connection.stage id method params
  let looks := decide (d.connection.stage.Joins stage)
  -- the last message of a miner that joins is the current job, which is looked at later
  let owed := if looks then reaction.messages.take 2 else reaction.messages
  ⟨pool, { d.connection with stage }, some ⟨owed, looks, reaction.stays, now⟩, d.looked⟩

/-- Messages are written, and the given reply is under way then. -/
def write (d : Dialogue σ) (ms : List Message) (reply : Option Reply) : Dialogue σ :=
  match d.connection.write ms with
  | (true, connection) => { d with connection, reply }
  | (false, connection) => concluded (connection.finish d.pool .broken) d.looked

/-- The next step of a reply. -/
def goOn (d : Dialogue σ) (r : Reply) : Dialogue σ :=
  match r.owed with
  | message :: owed => d.write [message] (some { r with owed })
  | [] =>
    if r.looks then
      { d with looked := d.pool.jobs.current :: d.looked }.write d.pool.currentJob (some { r with looks := false })
    else concluded (d.connection.giveReply d.pool [] r.stays r.now) d.looked

/-- What comes of an event, if it can come next. -/
def step? [Store σ] (d : Dialogue σ) : Event σ → Option (Dialogue σ)
  | .line now text =>
    if d.IsIdle then
      match Traffic.request? text with
      | some (id, method, params) => some (d.ask now id method params)
      | none => some (concluded (d.connection.handleLine d.pool now text) d.looked)
    else none
  | .reply => d.reply.map d.goOn
  | .pass =>
    if d.IsIdle then
      match d.connection.stage with
      | .authorized session =>
        match d.pool.registry.receive session.id with
        | (some message, registry) => some ({ d with pool := { d.pool with registry } }.write [message] none)
        | (none, _) => none
      | _ => none
    else none
  | .close => if d.IsIdle then some (concluded (d.connection.finish d.pool .inOrder) d.looked) else none
  | .meanwhile pool => some { d with pool }

/-- What comes of events in turn, if they can come in this order. -/
def run? [Store σ] (d : Dialogue σ) (es : List (Event σ)) : Option (Dialogue σ) := es.foldlM step? d

/-- The outcomes of an event that can come next. -/
inductive Stepped [Store σ] (d : Dialogue σ) : Event σ → Dialogue σ → Prop
  | asked {now : Nat} {text : String} {id : Id} {method : String} {params : Json} (hidle : d.IsIdle)
      (hrequest : Traffic.request? text = some (id, method, params)) :
      Stepped d (.line now text) (d.ask now id method params)
  | unasked {now : Nat} {text : String} (hidle : d.IsIdle) (hnone : Traffic.request? text = none) :
      Stepped d (.line now text) (concluded (d.connection.handleLine d.pool now text) d.looked)
  | wrote {r : Reply} {message : Message} {owed : List Message} (hreply : d.reply = some r)
      (howed : r.owed = message :: owed) : Stepped d .reply (d.write [message] (some { r with owed }))
  | looked {r : Reply} (hreply : d.reply = some r) (howed : r.owed = []) (hlooks : r.looks = true) :
      Stepped d .reply ({ d with looked := d.pool.jobs.current :: d.looked }.write d.pool.currentJob
        (some { r with looks := false }))
  | ended {r : Reply} (hreply : d.reply = some r) (howed : r.owed = []) (hlooks : r.looks = false) :
      Stepped d .reply (concluded (d.connection.giveReply d.pool [] r.stays r.now) d.looked)
  | passed {session : Session} {message : Message} {registry : Registry} (hidle : d.IsIdle)
      (hreceive : d.pool.registry.receive session.id = (some message, registry)) :
      Stepped d .pass ({ d with pool := { d.pool with registry } }.write [message] none)
  | closed (hidle : d.IsIdle) : Stepped d .close (concluded (d.connection.finish d.pool .inOrder) d.looked)
  | meanwhile {pool : Pool σ} : Stepped d (.meanwhile pool) { d with pool }

variable [Store σ] {d d' : Dialogue σ} {e : Event σ} {es : List (Event σ)}

theorem stepped_of_step? (h : d.step? e = some d') : d.Stepped e d' := by
  cases e with
  | line now text =>
    simp only [step?] at h
    split at h
    · next hidle =>
      split at h
      · next hrequest =>
        cases h
        exact .asked hidle hrequest
      · next hnone =>
        cases h
        exact .unasked hidle hnone
    · cases h
  | reply =>
    obtain ⟨r, hreply, rfl⟩ := Option.map_eq_some_iff.1 h
    unfold goOn
    split
    · next howed => exact .wrote hreply howed
    · next howed =>
      by_cases hlooks : r.looks = true
      · rw [if_pos hlooks]
        exact .looked hreply howed hlooks
      · rw [if_neg hlooks]
        exact .ended hreply howed (by simpa using hlooks)
  | pass =>
    simp only [step?] at h
    split at h
    · next hidle =>
      split at h
      · split at h
        · next hreceive =>
          cases h
          exact .passed hidle hreceive
        · cases h
      · cases h
    · cases h
  | close =>
    simp only [step?] at h
    split at h
    · next hidle =>
      cases h
      exact .closed hidle
    · cases h
  | meanwhile pool =>
    cases h
    exact .meanwhile

theorem run?_cons_eq_some : d.run? (e :: es) = some d' ↔ ∃ mid, d.step? e = some mid ∧ mid.run? es = some d' := by
  simp only [run?, List.foldlM_cons]
  exact Option.bind_eq_some_iff

/-! ### Steps that nothing comes between -/

/-- When a reply can be finished after messages were written, it can be finished with them. -/
private theorem exists_run?_write (d : Dialogue σ) (ms rest : List Message) (r : Reply)
    (h : ∀ c, ∃ n looked, run? { d with connection := c, reply := some r } (List.replicate n .reply) =
      some (concluded (c.giveReply d.pool rest r.stays r.now) looked)) :
    ∃ n looked, (d.write ms (some r)).run? (List.replicate n .reply) =
      some (concluded (d.connection.giveReply d.pool (ms ++ rest) r.stays r.now) looked) := by
  rw [Connection.giveReply_append, write]
  rcases d.connection.write ms with ⟨_ | _, c⟩
  · exact ⟨0, d.looked, rfl⟩
  · exact h c

/-- A reply is finished by steps in a row. -/
theorem exists_run?_reply {r : Reply} (hreply : d.reply = some r) :
    ∃ n looked, d.run? (List.replicate n .reply) = some (concluded (d.connection.giveReply d.pool
      (r.owed ++ if r.looks then d.pool.currentJob else []) r.stays r.now) looked) := by
  have hstep : d.step? .reply = some (d.goOn r) := by rw [step?, hreply, Option.map_some]
  obtain ⟨owed, looks, stays, now⟩ := r
  induction owed generalizing d with
  | nil =>
    cases looks with
    | false => exact ⟨1, d.looked, run?_cons_eq_some.2 ⟨_, hstep, rfl⟩⟩
    | true =>
      obtain ⟨n, looked, hrun⟩ := exists_run?_write { d with looked := d.pool.jobs.current :: d.looked }
        d.pool.currentJob [] ⟨[], false, stays, now⟩ fun c => ⟨1, _, rfl⟩
      refine ⟨n + 1, looked, run?_cons_eq_some.2 ⟨_, hstep, hrun.trans ?_⟩⟩
      rw [List.append_nil]
      rfl
  | cons message owed ih =>
    obtain ⟨n, looked, hrun⟩ := exists_run?_write d [message] (owed ++ if looks then d.pool.currentJob else [])
      ⟨owed, looks, stays, now⟩ fun c =>
        ih (d := { d with connection := c, reply := some ⟨owed, looks, stays, now⟩ }) rfl rfl
    exact ⟨n + 1, looked, run?_cons_eq_some.2 ⟨_, hstep, hrun⟩⟩

/-- A line that is handled at once is handled by steps in a row. -/
theorem exists_run?_handleLine (hidle : d.IsIdle) (now : Nat) (text : String) :
    ∃ n looked, d.run? (.line now text :: List.replicate n .reply) =
      some (concluded (d.connection.handleLine d.pool now text) looked) := by
  rcases hrequest : Traffic.request? text with _ | ⟨id, method, params⟩
  · refine ⟨0, d.looked, run?_cons_eq_some.2 ⟨_, ?_, rfl⟩⟩
    rw [step?, if_pos hidle, hrequest]
  · have hstep : d.step? (.line now text) = some (d.ask now id method params) := by
      rw [step?, if_pos hidle, hrequest]
    have hreplied := d.pool.dispatch_replied d.connection.ip d.connection.stage id method params
    rcases hdispatch : d.pool.dispatch d.connection.ip d.connection.stage id method params with ⟨reaction, stage, q⟩
    rw [hdispatch] at hreplied
    rw [d.connection.handleLine_of_request d.pool now hrequest, Connection.answer_eq_giveReply _ _ _ _ _ _ hdispatch]
    simp only [ask, hdispatch] at hstep
    obtain ⟨n, looked, hrun⟩ := exists_run?_reply (d := ⟨q, { d.connection with stage }, some
      ⟨if decide (d.connection.stage.Joins stage) = true then reaction.messages.take 2 else reaction.messages,
        decide (d.connection.stage.Joins stage), reaction.stays, now⟩, d.looked⟩) rfl
    refine ⟨n, looked, run?_cons_eq_some.2 ⟨_, hstep, hrun.trans ?_⟩⟩
    cases hreplied with
    | answered _ _ hstage => simp [hstage]
    | joined _ hstage => simp [hstage]

private theorem step?_pass {session : Session} {box : Mailbox} {message : Message} {rest : List Message}
    (hidle : d.IsIdle) (hstage : d.connection.stage = .authorized session)
    (hbox : d.pool.registry.mailbox? session.id = some box) (hmessages : box.messages = message :: rest) :
    d.step? .pass = some ({ d with pool := { d.pool with
      registry := d.pool.registry.setMailbox session.id { box with messages := rest } } }.write [message] none) := by
  rw [step?, if_pos hidle, hstage]
  dsimp only
  rw [Registry.receive_of_mailbox? hbox hmessages]

/-- The emptying of a mailbox is a row of steps. -/
theorem exists_run?_deliver {session : Session} {box : Mailbox} (hidle : d.IsIdle)
    (hstage : d.connection.stage = .authorized session) (hbox : d.pool.registry.mailbox? session.id = some box)
    (hwaits : box.messages ≠ []) :
    ∃ n, d.run? (List.replicate n .pass) = some (concluded (d.connection.deliver d.pool) d.looked) := by
  obtain ⟨message, rest, hmessages⟩ := List.exists_cons_of_ne_nil hwaits
  induction rest generalizing d box message with
  | nil =>
    refine ⟨1, run?_cons_eq_some.2 ⟨_, step?_pass hidle hstage hbox hmessages, ?_⟩⟩
    have hstage' := (d.connection.stage_write [message]).trans hstage
    rw [Connection.deliver_cons hstage hbox hmessages,
      Connection.deliver_of_mailbox? hstage' (Registry.mailbox?_setMailbox _ _ _),
      Registry.setMailbox_setMailbox, write]
    rcases d.connection.write [message] with ⟨_ | _, c⟩ <;> rfl
  | cons next rest ih =>
    have hstage' := (d.connection.stage_write [message]).trans hstage
    have hended := (d.connection.ended_write [message]).trans hidle.2
    have hstep := step?_pass hidle hstage hbox hmessages
    rw [Connection.deliver_cons hstage hbox hmessages]
    rw [write] at hstep
    rcases hfirst : d.connection.write [message] with ⟨_ | _, c⟩
    · rw [hfirst] at hstep
      exact ⟨1, run?_cons_eq_some.2 ⟨_, hstep, rfl⟩⟩
    · rw [hfirst] at hstep hstage' hended
      obtain ⟨n, hrun⟩ := ih (d := { d with
          pool := { d.pool with
            registry := d.pool.registry.setMailbox session.id { box with messages := next :: rest } }
          connection := c
          reply := none })
        ⟨rfl, hended⟩ hstage' (Registry.mailbox?_setMailbox _ _ _) (List.cons_ne_nil _ _) next rfl
      exact ⟨n + 1, run?_cons_eq_some.2 ⟨_, hstep, hrun⟩⟩

end Dialogue

end MergedMining
