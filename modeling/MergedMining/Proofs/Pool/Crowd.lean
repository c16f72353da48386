import MergedMining.Proofs.Outcome
import MergedMining.Proofs.Pool.Dialogue
import MergedMining.Proofs.Pool.Ground

/-!
# All connections of a pool at once

Every connection is served by a task of its own, and one more task lets miners in.  `Crowd` is a pool with all
connections that were let in, each with the reply that is under way on it, and the counter of those that are
being served.  A step is what one task does until it next waits for a miner: a miner is let in or dropped; a
connection takes a line, writes a message, is passed one, or ends and lowers the counter; a job is published, or
one session is told of it.  What a connection does is made of five kinds of changes (`Connection.Goes`), and
whatever happens to a pool in one piece is steps in a row (`exists_run?_step`).
-/

namespace MergedMining

open Stratum (Id Message)

/-- A connection, the reply that is under way on it, and what was the current job whenever it was looked at. -/
structure Member where
  connection : Connection
  reply : Option Reply
  looked : List (Option Work)

/-- A pool with all connections that were let in, in the order of their coming, and how many of them are being
served as the pool counts them. -/
structure Crowd (σ : Type) where
  pool : Pool σ
  members : List Member
  count : Nat

namespace Member

variable {σ : Type}

/-- The connection on its own with the pool. -/
def dialogue (m : Member) (pool : Pool σ) : Dialogue σ := ⟨pool, m.connection, m.reply, m.looked⟩

/-- What is left of a dialogue without the pool. -/
def ofDialogue (d : Dialogue σ) : Member := ⟨d.connection, d.reply, d.looked⟩

end Member

namespace Crowd

variable {σ : Type}

/-- A pool that nobody was let in to. -/
def ofPool (pool : Pool σ) : Crowd σ := ⟨pool, [], 0⟩

/-- How many connections are being served. -/
def served (c : Crowd σ) : Nat := c.members.countP fun m => m.connection.ended.isNone

/-! ### Steps -/

/-- What the task of a connection can do next.  A flood bans the address before the connection is closed. -/
inductive Action
  | line (now : Nat) (text : String)
  | reply
  | pass
  | close
  | flood

/-- What comes of an action, if the connection can do it next. -/
def Action.step? [Store σ] (d : Dialogue σ) : Action → Option (Dialogue σ)
  | .line now text => d.step? (.line now text)
  | .reply => d.step? .reply
  | .pass => d.step? .pass
  | .close => d.step? .close
  | .flood => { d with pool := { d.pool with bans := d.pool.bans.ban d.connection.ip } }.step? .close

/-- What comes of actions in turn. -/
def Action.run? [Store σ] (d : Dialogue σ) (actions : List Action) : Option (Dialogue σ) :=
  actions.foldlM Action.step? d

/-- What can come next.  Connections are given by their place. -/
inductive Event
  | arrive (ip : Ip) (deadline : Nat)
  | act (place : Nat) (action : Action)
  | limit (place : Nat) (room : Option Nat)
  | publish (clean : Bool)
  | tell (id : SessionId) (message : Message)
  | flush
  | recover (chain : Nat)
  | stopRecovery

/-- A miner comes.  The counter is raised in any case, and what it was before is compared with the limit; for a miner
that is dropped it is lowered again at once.  In between the raw counter stands one above the limit.  But only the
task that lets miners in ever reads the counter, and that task is itself between the two, so nothing is decided by
this value, and the two are one step here. -/
def arrive (c : Crowd σ) (ip : Ip) (deadline : Nat) : Crowd σ :=
  if c.count < c.pool.settings.maxConnections then
    { c with members := c.members ++ [⟨Connection.ofIp ip deadline, none, []⟩], count := c.count + 1 }
  else c

/-- A connection went on, and the task of one that ended lowers the counter before it is gone.  The raw counter lags
behind the end of serving by this last act of the task.  Only the task that lets miners in reads it, and a miner that
comes meanwhile is let in or dropped just as if the connection had not ended yet, so its end and the lowering are one
step here. -/
def proceed (c : Crowd σ) (place : Nat) (d : Dialogue σ) : Crowd σ where
  pool := d.pool
  members := c.members.set place (.ofDialogue d)
  count := if d.connection.ended.isSome then c.count - 1 else c.count

/-- The open connection of a place. -/
def member? (c : Crowd σ) (place : Nat) : Option Member := c.members[place]?.filter (·.connection.ended.isNone)

/-- What comes of an event, if it can come next. -/
def step? [Store σ] (c : Crowd σ) : Event → Option (Crowd σ)
  | .arrive ip deadline => some (c.arrive ip deadline)
  | .act place action => do
    let m ← c.member? place
    let d ← action.step? (m.dialogue c.pool)
    return c.proceed place d
  | .limit place room => do
    let m ← c.member? place
    return { c with members := c.members.set place { m with connection := { m.connection with room } } }
  | .publish clean => some { c with pool := { (c.pool.refresh clean).2 with registry := c.pool.registry } }
  | .tell id message => some { c with pool := { c.pool with registry := (c.pool.registry.post message id).2 } }
  | .flush =>
    let (_, shares, store) := c.pool.shares.flush c.pool.store
    some { c with pool := { c.pool with shares, store } }
  | .recover chain => some { c with pool := Service.recover c.pool chain }
  | .stopRecovery => some { c with pool := Service.stopRecovery c.pool }

/-- What comes of events in turn, if they can come in this order. -/
def run? [Store σ] (c : Crowd σ) (es : List Event) : Option (Crowd σ) := es.foldlM step? c

/-- The outcomes of an event that can come next. -/
inductive Stepped [Store σ] (c : Crowd σ) : Event → Crowd σ → Prop
  | arrived {ip : Ip} {deadline : Nat} : Stepped c (.arrive ip deadline) (c.arrive ip deadline)
  | acted {place : Nat} {action : Action} {m : Member} {d : Dialogue σ} (hm : c.members[place]? = some m)
      (hopen : m.connection.ended = none) (hstep : action.step? (m.dialogue c.pool) = some d) :
      Stepped c (.act place action) (c.proceed place d)
  | limited {place : Nat} {room : Option Nat} {m : Member} (hm : c.members[place]? = some m)
      (hopen : m.connection.ended = none) : Stepped c (.limit place room) { c with
        members := c.members.set place { m with connection := { m.connection with room } } }
  | published {clean : Bool} :
      Stepped c (.publish clean) { c with pool := { (c.pool.refresh clean).2 with registry := c.pool.registry } }
  | told {id : SessionId} {message : Message} :
      Stepped c (.tell id message) { c with pool := { c.pool with registry := (c.pool.registry.post message id).2 } }
  | flushed : Stepped c .flush { c with pool := { c.pool with
      shares := (c.pool.shares.flush c.pool.store).2.1
      store := (c.pool.shares.flush c.pool.store).2.2 } }
  | outward {e : Event} {q : Pool σ} (hq : c.pool.Outward q) : Stepped c e { c with pool := q }

variable [Store σ] {c c' : Crowd σ} {e : Event} {es : List Event} {place : Nat} {m : Member}

omit [Store σ] in
theorem member?_eq_some : c.member? place = some m ↔ c.members[place]? = some m ∧ m.connection.ended = none := by
  simp [member?, Option.filter_eq_some_iff]

theorem stepped_of_step? (h : c.step? e = some c') : c.Stepped e c' := by
  cases e with
  | arrive ip deadline =>
    cases h
    exact .arrived
  | act place action =>
    obtain ⟨m, hm, h⟩ := Option.bind_eq_some_iff.1 h
    obtain ⟨d, hd, h⟩ := Option.bind_eq_some_iff.1 h
    cases h
    obtain ⟨hm, hopen⟩ := member?_eq_some.1 hm
    exact .acted hm hopen hd
  | limit place room =>
    obtain ⟨m, hm, h⟩ := Option.bind_eq_some_iff.1 h
    cases h
    obtain ⟨hm, hopen⟩ := member?_eq_some.1 hm
    exact .limited hm hopen
  | publish clean =>
    cases h
    exact .published
  | tell id message =>
    cases h
    exact .told
  | flush =>
    cases h
    exact .flushed
  | recover chain =>
    cases h
    exact .outward (Service.recover_outward c.pool chain)
  | stopRecovery =>
    cases h
    exact .outward (Service.stopRecovery_outward c.pool)

theorem run?_cons_eq_some : c.run? (e :: es) = some c' ↔ ∃ mid, c.step? e = some mid ∧ mid.run? es = some c' :=
  Outcome.foldlM_cons_eq_some

theorem run?_append (c : Crowd σ) (es es' : List Event) : c.run? (es ++ es') = (c.run? es).bind (·.run? es') :=
  List.foldlM_append

/-- What holds at the start and is kept by every step holds after every run. -/
theorem run?_induction {P : Crowd σ → Prop} (hstart : P c)
    (hstep : ∀ (c : Crowd σ) (e : Event) (c' : Crowd σ), P c → c.Stepped e c' → P c')
    (h : c.run? es = some c') : P c' :=
  Outcome.foldlM_induction hstart (fun c e c' hc h => hstep c e c' hc (stepped_of_step? h)) h

theorem Action.run?_cons_eq_some {d d' : Dialogue σ} {action : Action} {actions : List Action} :
    Action.run? d (action :: actions) = some d' ↔
      ∃ mid, action.step? d = some mid ∧ Action.run? mid actions = some d' :=
  Outcome.foldlM_cons_eq_some

/-- An action is a step of the connection alone, and nothing else happens meanwhile. -/
theorem Action.exists_stepped {d d' : Dialogue σ} {action : Action} (h : action.step? d = some d') :
    ∃ bans e, (∀ q, e ≠ .meanwhile q) ∧ Dialogue.Stepped { d with pool := { d.pool with bans } } e d' := by
  have hsame (e : Dialogue.Event σ) (he : ∀ q, e ≠ .meanwhile q) (h : d.step? e = some d') :
      ∃ bans e, (∀ q, e ≠ .meanwhile q) ∧ Dialogue.Stepped { d with pool := { d.pool with bans } } e d' :=
    ⟨d.pool.bans, e, he, Dialogue.stepped_of_step? h⟩
  cases action with
  | line now text => exact hsame (.line now text) (fun _ => nofun) h
  | reply => exact hsame .reply (fun _ => nofun) h
  | pass => exact hsame .pass (fun _ => nofun) h
  | close => exact hsame .close (fun _ => nofun) h
  | flood => exact ⟨_, .close, fun _ => nofun, Dialogue.stepped_of_step? h⟩

end Crowd

/-! ### What an action is made of -/

namespace Connection

variable {σ : Type}

/-- A connection goes on: it stays in its stage, its address is banned, a message is taken out of a mailbox, a
request is handled, or it ends. -/
inductive Goes : Pool σ → Connection → Connection → Pool σ → Prop
  | stayed {p : Pool σ} {k k' : Connection} (hstage : k'.stage = k.stage) (hended : k'.ended = k.ended) :
      Goes p k k' p
  | banned {p : Pool σ} {k : Connection} (bans : Bans) : Goes p k k { p with bans }
  | received {p : Pool σ} {k : Connection} {id : SessionId} {message : Message} {registry : Registry}
      (hreceive : p.registry.receive id = (some message, registry)) : Goes p k k { p with registry }
  | dispatched {p q : Pool σ} {k : Connection} {id : Id} {method : String} {params : Json} {reaction : Reaction}
      {stage : Stage} (h : p.Dispatched k.ip k.stage id method params (reaction, stage, q)) :
      Goes p k { k with stage } q
  | finished {p : Pool σ} {k : Connection} (ending : Ending) : Goes p k (k.finish p ending).1 (k.finish p ending).2
  | andThen {p q r : Pool σ} {k k' k'' : Connection} (h : Goes p k k' q) (h' : Goes q k' k'' r) : Goes p k k'' r

end Connection

namespace Dialogue

variable {σ : Type} {d d' : Dialogue σ}

private theorem goes_write (d : Dialogue σ) (ms : List Message) (reply : Option Reply) :
    d.connection.Goes d.pool (d.write ms reply).connection (d.write ms reply).pool := by
  have hwritten : d.connection.Goes d.pool (d.connection.write ms).2 d.pool :=
    .stayed (d.connection.stage_write ms) (d.connection.ended_write ms)
  unfold write
  generalize d.connection.write ms = written at hwritten ⊢
  rcases written with ⟨_ | _, k⟩
  · exact hwritten.andThen (.finished _)
  · exact hwritten

theorem Stepped.goes [Store σ] {e : Event σ} (h : d.Stepped e d') (halone : ∀ q, e ≠ .meanwhile q) :
    d.connection.Goes d.pool d'.connection d'.pool := by
  cases h with
  | @asked now text id method params =>
    have hdispatched := d.pool.dispatch_dispatched d.connection.ip d.connection.stage id method params
    unfold ask
    rcases hresult : d.pool.dispatch d.connection.ip d.connection.stage id method params with ⟨reaction, stage, q⟩
    rw [hresult] at hdispatched
    exact .dispatched hdispatched
  | unasked _ hnone =>
    rcases d.connection.handleLine_eq_of_no_request d.pool _ hnone with heq | ⟨bans, heq⟩
    · rw [heq]
      exact .stayed rfl rfl
    · rw [heq]
      exact .andThen (.banned bans) (.finished _)
  | wrote => exact d.goes_write _ _
  | looked => exact goes_write { d with looked := d.pool.jobs.current :: d.looked } _ _
  | @ended r =>
    rw [Connection.giveReply_nil]
    cases r.stays with
    | true => exact .stayed rfl rfl
    | false => exact .finished _
  | @passed _ _ registry _ hreceive =>
    exact .andThen (.received hreceive) (goes_write { d with pool := { d.pool with registry } } _ _)
  | closed => exact .finished _
  | meanwhile => exact absurd rfl (halone _)

end Dialogue

theorem Crowd.Action.goes {σ : Type} [Store σ] {d d' : Dialogue σ} {action : Crowd.Action}
    (h : action.step? d = some d') : d.connection.Goes d.pool d'.connection d'.pool := by
  obtain ⟨bans, e, halone, hstepped⟩ := Action.exists_stepped h
  exact .andThen (.banned bans) (hstepped.goes halone)

namespace Crowd

variable {σ : Type} [Store σ] {c c' : Crowd σ} {e : Event} {es : List Event} {place : Nat} {m : Member}

/-! ### What happens in one piece -/

/-- A reply is under way on open connections only. -/
def IsSound (d : Dialogue σ) : Prop := d.reply ≠ none → d.connection.ended = none

omit [Store σ] in
private theorem isSound_write {d : Dialogue σ} (hopen : d.connection.ended = none) (ms : List Message)
    (reply : Option Reply) : IsSound (d.write ms reply) := by
  have hkept := d.connection.ended_write ms
  unfold Dialogue.write
  rcases hwrite : d.connection.write ms with ⟨_ | _, k⟩
  · exact fun hreply => absurd rfl hreply
  · rw [hwrite] at hkept
    exact fun _ => hkept.trans hopen

private theorem isSound_action {d d' : Dialogue σ} {action : Action} (h : IsSound d)
    (hstep : action.step? d = some d') : d.connection.ended = none ∧ IsSound d' := by
  obtain ⟨bans, e, he, hstepped⟩ := Action.exists_stepped hstep
  cases hstepped with
  | asked hidle => exact ⟨hidle.2, fun _ => hidle.2⟩
  | unasked hidle => exact ⟨hidle.2, fun hreply => absurd rfl hreply⟩
  | wrote hreply =>
    have hopen : d.connection.ended = none := h (by rw [hreply]; nofun)
    exact ⟨hopen, isSound_write (by exact hopen) _ _⟩
  | looked hreply =>
    have hopen : d.connection.ended = none := h (by rw [hreply]; nofun)
    exact ⟨hopen, isSound_write (by exact hopen) _ _⟩
  | ended hreply => exact ⟨h (by rw [hreply]; nofun), fun hnone => absurd rfl hnone⟩
  | passed hidle => exact ⟨hidle.2, isSound_write (by exact hidle.2) _ _⟩
  | closed hidle => exact ⟨hidle.2, fun hreply => absurd rfl hreply⟩
  | meanwhile => exact absurd rfl (he _)

/-- What one connection does in a row it does in the crowd. -/
theorem exists_run?_act {actions : List Action} {d : Dialogue σ} (hm : c.members[place]? = some m)
    (hsound : IsSound (m.dialogue c.pool)) (h : Action.run? (m.dialogue c.pool) actions = some d) :
    ∃ c', c.run? (actions.map (.act place)) = some c' ∧ c'.pool = d.pool ∧
      c'.members = c.members.set place (.ofDialogue d) := by
  obtain ⟨hplace, hget⟩ := List.getElem?_eq_some_iff.1 hm
  induction actions generalizing c m with
  | nil =>
    cases h
    refine ⟨c, rfl, rfl, ?_⟩
    rw [← hget]
    exact (List.set_getElem_self hplace).symm
  | cons action actions ih =>
    obtain ⟨mid, hmid, hrest⟩ := Action.run?_cons_eq_some.1 h
    obtain ⟨hopen, hsound'⟩ := isSound_action hsound hmid
    have hstep : c.step? (.act place action) = some (c.proceed place mid) := by
      have hm := member?_eq_some.2 ⟨hm, hopen⟩
      simp only [step?, hm, hmid, Option.bind_eq_bind, Option.bind_some]
      rfl
    have hplace' : place < (c.proceed place mid).members.length := by
      rw [proceed, List.length_set]
      exact hplace
    have hget' : (c.proceed place mid).members[place] = .ofDialogue mid := List.getElem_set_self _
    obtain ⟨c', hrun, hpool, hmembers⟩ :=
      ih (List.getElem?_eq_some_iff.2 ⟨hplace', hget'⟩) hsound' hrest hplace' hget'
    refine ⟨c', run?_cons_eq_some.2 ⟨_, hstep, hrun⟩, hpool, hmembers.trans ?_⟩
    rw [proceed, List.set_set]

/-- Steps of one kind in a row. -/
private theorem run?_replicate (action : Action) (e : Dialogue.Event σ)
    (he : ∀ d : Dialogue σ, action.step? d = d.step? e) (n : Nat) (d : Dialogue σ) :
    Action.run? d (List.replicate n action) = d.run? (List.replicate n e) := by
  induction n generalizing d with
  | zero => rfl
  | succ n ih =>
    simp only [Action.run?, List.replicate_succ, List.foldlM_cons, he, Dialogue.run?]
    exact bind_congr fun d' => ih d'

private theorem run?_tell (c : Crowd σ) (message : Message) (ids : List SessionId) :
    c.run? (ids.map fun id => .tell id message) =
      some { c with pool := { c.pool with registry := (Registry.postAll message ids c.pool.registry).2 } } := by
  induction ids generalizing c with
  | nil => rfl
  | cons id ids ih =>
    rw [List.map_cons, run?_cons_eq_some]
    exact ⟨_, rfl, ih _⟩

omit [Store σ] in
private theorem exists_registry_refresh (p : Pool σ) (clean : Bool) :
    ∃ message ids, (p.refresh clean).2.registry = (Registry.postAll message ids p.registry).2 := by
  have hrefreshed := p.refresh_refreshed clean
  generalize p.refresh clean = result at hrefreshed
  cases hrefreshed with
  | unfetched hq => exact ⟨.result .null .null, [], hq.registry⟩
  | unbuilt hq =>
    have hsame := hq.registry
    exact ⟨.result .null .null, [], hsame⟩
  | @published _ _ work notify q hq =>
    refine ⟨Pool.notification (notify.withClean (q.takingId.jobs.publish work clean).1), p.registry.registered, ?_⟩
    rw [← hq.registry]
    rfl

/-- A crowd and a pool with the same connections, none of them with a reply under way. -/
structure Matches (c : Crowd σ) (t : Traffic σ) : Prop where
  pool : c.pool = t.pool
  connections : c.members.map Member.connection = t.connections
  idle : ∀ m ∈ c.members, m.reply = none

omit [Store σ] in
private theorem Matches.exists_member {t : Traffic σ} (h : c.Matches t) {k : Connection}
    (hk : t.connection? place = some k) : ∃ m, c.members[place]? = some m ∧ m.connection = k ∧ m.reply = none ∧
      k.ended = none := by
  obtain ⟨hget, hopen⟩ := Option.filter_eq_some_iff.1 hk
  rw [← h.connections, List.getElem?_map] at hget
  obtain ⟨m, hm, rfl⟩ := Option.map_eq_some_iff.1 hget
  exact ⟨m, hm, rfl, h.idle m (List.mem_of_getElem? hm), by simpa using hopen⟩

/-- A row of actions leads to what is done in one piece, with no reply under way. -/
private def Comes (d : Dialogue σ) (result : Connection × Pool σ) : Prop :=
  ∃ actions looked, Action.run? d actions = some (Dialogue.concluded result looked)

private theorem comes_nothing {d : Dialogue σ} (hidle : d.IsIdle) : Comes d (d.connection, d.pool) := by
  obtain ⟨pool, connection, reply, looked⟩ := d
  obtain rfl : reply = none := hidle.1
  exact ⟨[], looked, rfl⟩

private theorem comes_handleLine {d : Dialogue σ} (hidle : d.IsIdle) (now : Nat) (text : String) :
    Comes d (d.connection.handleLine d.pool now text) := by
  obtain ⟨n, looked, hrun⟩ := Dialogue.exists_run?_handleLine hidle now text
  obtain ⟨mid, hline, hrest⟩ := Dialogue.run?_cons_eq_some.1 hrun
  refine ⟨.line now text :: List.replicate n .reply, looked, ?_⟩
  rw [← run?_replicate .reply .reply fun _ => rfl] at hrest
  exact Action.run?_cons_eq_some.2 ⟨mid, hline, hrest⟩

private theorem comes_deliver {d : Dialogue σ} (hidle : d.IsIdle)
    (hwaits : ∀ session, d.connection.stage = .authorized session →
      ∀ box, d.pool.registry.mailbox? session.id = some box → box.messages ≠ []) :
    Comes d (d.connection.deliver d.pool) := by
  have hnothing (h : d.connection.deliver d.pool = (d.connection, d.pool)) :
      Comes d (d.connection.deliver d.pool) := by
    rw [h]
    exact comes_nothing hidle
  rcases hstage : d.connection.stage with _ | _ | session | _
  · exact hnothing (by rw [Connection.deliver, hstage])
  · exact hnothing (by rw [Connection.deliver, hstage])
  · rcases hbox : d.pool.registry.mailbox? session.id with _ | box
    · exact hnothing (by simp only [Connection.deliver, hstage, hbox])
    · obtain ⟨n, hrun⟩ := Dialogue.exists_run?_deliver hidle hstage hbox (hwaits session hstage box hbox)
      refine ⟨List.replicate n .pass, d.looked, ?_⟩
      rw [run?_replicate .pass .pass fun _ => rfl]
      exact hrun
  · exact hnothing (by rw [Connection.deliver, hstage])

private theorem comes_finish {d : Dialogue σ} (hidle : d.IsIdle) :
    Comes d (d.connection.finish d.pool .inOrder) := by
  have hclose : Action.step? d .close = some (Dialogue.concluded (d.connection.finish d.pool .inOrder) d.looked) := by
    rw [Action.step?, Dialogue.step?, if_pos hidle]
  exact ⟨[.close], d.looked, Action.run?_cons_eq_some.2 ⟨_, hclose, rfl⟩⟩

private theorem comes_flood {d : Dialogue σ} (hidle : d.IsIdle) :
    Comes d (d.connection.finish { d.pool with bans := d.pool.bans.ban d.connection.ip } .inOrder) := by
  have hbanned : Dialogue.IsIdle { d with pool := { d.pool with bans := d.pool.bans.ban d.connection.ip } } := hidle
  have hflood : Action.step? d .flood = some (Dialogue.concluded
      (d.connection.finish { d.pool with bans := d.pool.bans.ban d.connection.ip } .inOrder) d.looked) := by
    rw [Action.step?, Dialogue.step?, if_pos hbanned]
  exact ⟨[.flood], d.looked, Action.run?_cons_eq_some.2 ⟨_, hflood, rfl⟩⟩

/-- What an open connection does in one piece. -/
private theorem exists_run?_act_of_comes {t : Traffic σ} (h : c.Matches t)
    (f : Connection → Pool σ → Connection × Pool σ) {place : Nat}
    (hf : ∀ m, c.members[place]? = some m → (m.dialogue c.pool).IsIdle →
      Comes (m.dialogue c.pool) (f m.connection c.pool)) :
    ∃ es c', c.run? es = some c' ∧ c'.Matches (t.act place f) := by
  unfold Traffic.act
  rcases hk : t.connection? place with _ | k
  · exact ⟨[], c, rfl, h⟩
  obtain ⟨m, hm, rfl, hreply, hopen⟩ := h.exists_member hk
  obtain ⟨actions, looked, hactions⟩ := hf m hm ⟨hreply, hopen⟩
  obtain ⟨c', hrun, hpool, hmembers⟩ := exists_run?_act hm (fun _ => hopen) hactions
  rw [← h.pool]
  refine ⟨_, c', hrun, hpool, ?_, ?_⟩
  · rw [hmembers, List.map_set, h.connections]
    rfl
  · intro other hother
    rw [hmembers] at hother
    rcases List.mem_or_eq_of_mem_set hother with hold | rfl
    · exact h.idle other hold
    · rfl

/-- What may happen in one piece: a miner is let in while there is room, what is delivered is there, and only
what cannot be written breaks a connection. -/
def Allows (c : Crowd σ) : Traffic.Event → Prop
  | .connect _ _ => c.count < c.pool.settings.maxConnections
  | .deliver place => ∀ m, c.members[place]? = some m → ∀ session, m.connection.stage = .authorized session →
      ∀ box, c.pool.registry.mailbox? session.id = some box → box.messages ≠ []
  | .finish _ ending => ending = .inOrder
  | _ => True

/-- Whatever happens to a pool in one piece is steps of its tasks in a row. -/
theorem exists_run?_step {t : Traffic σ} (h : c.Matches t) {e : Traffic.Event} (hallows : c.Allows e) :
    ∃ es c', c.run? es = some c' ∧ c'.Matches (t.step e) := by
  -- steps that do not concern a connection
  have hpool (e : Event) (pool : Pool σ) (hstep : c.step? e = some { c with pool }) :
      ∃ es c', c.run? es = some c' ∧ c'.Matches { t with pool } :=
    ⟨[e], { c with pool }, run?_cons_eq_some.2 ⟨_, hstep, rfl⟩, rfl, h.connections, h.idle⟩
  cases e with
  | connect ip deadline =>
    refine ⟨[.arrive ip deadline], _, run?_cons_eq_some.2 ⟨_, rfl, rfl⟩, ?_⟩
    have hroom : c.count < c.pool.settings.maxConnections := hallows
    rw [arrive, if_pos hroom]
    refine ⟨h.pool, ?_, ?_⟩
    · rw [List.map_append, h.connections]
      rfl
    · intro m hm
      rcases List.mem_append.1 hm with hold | hnew
      · exact h.idle m hold
      · obtain rfl := List.mem_singleton.1 hnew
        rfl
  | line place now text =>
    exact exists_run?_act_of_comes h (fun k p => k.handleLine p now text) fun m _ hidle =>
      comes_handleLine hidle now text
  | flood place =>
    exact exists_run?_act_of_comes h (fun k p => k.finish { p with bans := p.bans.ban k.ip } .inOrder)
      fun m _ hidle =>
      comes_flood hidle
  | finish place ending =>
    obtain rfl : ending = .inOrder := hallows
    exact exists_run?_act_of_comes h (fun k p => k.finish p .inOrder) fun m _ hidle => comes_finish hidle
  | limit place room =>
    rw [Traffic.step, Traffic.act]
    rcases hk : t.connection? place with _ | k
    · exact ⟨[], c, rfl, h⟩
    obtain ⟨m, hm, rfl, hreply, hopen⟩ := h.exists_member hk
    have hstep : c.step? (.limit place room) = some { c with
        members := c.members.set place { m with connection := { m.connection with room } } } := by
      simp only [step?, member?_eq_some.2 ⟨hm, hopen⟩, Option.bind_eq_bind, Option.bind_some]
      rfl
    refine ⟨[.limit place room], _, run?_cons_eq_some.2 ⟨_, hstep, rfl⟩, h.pool, ?_, ?_⟩
    · rw [List.map_set, h.connections]
    · intro other hother
      rcases List.mem_or_eq_of_mem_set hother with hold | rfl
      · exact h.idle other hold
      · exact hreply
  | deliver place =>
    exact exists_run?_act_of_comes h (fun k p => k.deliver p) fun m hm hidle => comes_deliver hidle (hallows m hm)
  | refresh clean =>
    obtain ⟨message, ids, hregistry⟩ := exists_registry_refresh c.pool clean
    have hstep : c.step? (.publish clean) =
      some { c with pool := { (c.pool.refresh clean).2 with registry := c.pool.registry } } := rfl
    refine ⟨_, _, run?_cons_eq_some.2 ⟨_, hstep, run?_tell _ message ids⟩, ?_, h.connections, h.idle⟩
    rw [← hregistry, h.pool]
    rfl
  | flush =>
    rw [Traffic.step, ← h.pool]
    exact hpool .flush _ rfl
  | recover chain =>
    rw [Traffic.step, ← h.pool]
    exact hpool (.recover chain) _ rfl
  | stopRecovery =>
    rw [Traffic.step, ← h.pool]
    exact hpool .stopRecovery _ rfl

end Crowd

end MergedMining
