import MergedMining.Proofs.Bans
import MergedMining.Proofs.Pool.Crowd
import MergedMining.Proofs.Pool.Steady

/-!
# Banned addresses are refused

A line that is no message is a strike against the address of its connection, a flood bans it, and nothing else
that happens to a pool concerns bans (`bans_run?`).  A banned address that asks to subscribe or to work changes
nothing (`ask_of_isBanned`), and all that is left for its connection is to be told so and to end
(`Leaves.run?`).
-/

namespace MergedMining

open Stratum (Id Message Refusal)

/-- What a banned address is told. -/
def banNotice (id : Id) : Message := .refusal id (.withText .other "Banned")

/-! ### What concerns bans -/

namespace Pool

variable {σ : Type} {p q : Pool σ} {ip : Ip} {stage stage' : Stage} {id : Id} {method : String} {params : Json}
  {reaction : Reaction}

theorem Submitted.bans (h : p.Submitted ip stage id params (reaction, q)) : q.bans = p.bans := by
  cases h with
  | turnedAway => rfl
  | duplicate => rfl
  | refused => rfl
  | counted _ _ _ _ _ hq => exact hq.bans

theorem Dispatched.bans (h : p.Dispatched ip stage id method params (reaction, stage', q)) : q.bans = p.bans := by
  cases h with
  | answered => rfl
  | exhausted => rfl
  | subscribed => rfl
  | authorized => rfl
  | submitted _ h => exact h.bans

theorem Refreshed.bans {clean : Bool} {result : Except Failure Work} (h : p.Refreshed clean (result, q)) :
    q.bans = p.bans := by
  cases h with
  | unfetched hq => exact hq.bans
  | unbuilt hq => exact hq.bans
  | published hq => exact hq.bans

/-- A banned address is told so, whatever it asks for to begin with. -/
theorem dispatch_of_isBanned [Store σ] (p : Pool σ) (hbanned : p.bans.isBanned ip = true)
    (hmethod : method = "mining.subscribe" ∨ method = "mining.authorize") (stage : Stage) (id : Id) (params : Json) :
    p.dispatch ip stage id method params = (⟨[banNotice id], false⟩, stage, p) := by
  rcases hmethod with rfl | rfl
  · rw [dispatch, if_pos rfl, subscribe, if_pos hbanned]
    rfl
  · rw [dispatch, if_neg (by decide), if_pos rfl, authorize, if_pos hbanned]
    rfl

end Pool

/-- A line that is no message, and not blank either. -/
def Traffic.IsMalformed (text : String) : Prop := ¬ text.toList.all Blank.isBlank = true ∧ Message.parse? text = none

instance (text : String) : Decidable (Traffic.IsMalformed text) := by
  unfold Traffic.IsMalformed
  infer_instance

theorem Connection.handleLine_of_request?_eq_none {σ : Type} [Store σ] (k : Connection) (p : Pool σ) (now : Nat)
    {text : String} (h : Traffic.request? text = none) : k.handleLine p now text =
      if Traffic.IsMalformed text then k.finish { p with bans := (p.bans.strike k.ip).2 } .inOrder else (k, p) := by
  unfold Traffic.request? at h
  unfold Connection.handleLine
  by_cases hblank : text.toList.all Blank.isBlank = true
  · have hwell : ¬ Traffic.IsMalformed text := fun hbad => hbad.1 hblank
    rw [if_pos hblank, if_neg hwell]
  rw [if_neg hblank] at h ⊢
  rcases hmessage : Message.parse? text with _ | ⟨_, _, _⟩ | ⟨_, _, _⟩ | ⟨_, _⟩
  · have hbad : Traffic.IsMalformed text := ⟨hblank, hmessage⟩
    rw [if_pos hbad]
  · rw [hmessage] at h
    cases h
  · have hwell : ¬ Traffic.IsMalformed text := fun hbad => nomatch hmessage.symm.trans hbad.2
    rw [if_neg hwell]
  · rw [hmessage] at h
    cases h

theorem Traffic.not_isMalformed_of_request? {text : String} {r : Id × String × Json} (h : request? text = some r) :
    ¬ IsMalformed text := by
  rintro ⟨hblank, hnone⟩
  rw [request?, if_neg hblank, hnone] at h
  cases h

theorem Dialogue.bans_write {σ : Type} (d : Dialogue σ) (ms : List Message) (reply : Option Reply) :
    (d.write ms reply).pool.bans = d.pool.bans := by
  unfold Dialogue.write
  rcases d.connection.write ms with ⟨_ | _, k⟩ <;> rfl

/-- Who is banned after an event: of what a connection does, only a line that is no message is held against its
address. -/
def Dialogue.bansAfter {σ : Type} (d : Dialogue σ) : Event σ → Bans
  | .line _ text => if Traffic.IsMalformed text then (d.pool.bans.strike d.connection.ip).2 else d.pool.bans
  | .meanwhile q => q.bans
  | _ => d.pool.bans

theorem Dialogue.Stepped.bans {σ : Type} [Store σ] {d d' : Dialogue σ} {e : Event σ} (h : d.Stepped e d') :
    d'.pool.bans = d.bansAfter e := by
  cases h with
  | @asked now text id method params hidle hrequest =>
    have hdispatched := d.pool.dispatch_dispatched d.connection.ip d.connection.stage id method params
    rw [bansAfter, if_neg (Traffic.not_isMalformed_of_request? hrequest), ask]
    generalize d.pool.dispatch d.connection.ip d.connection.stage id method params = result at hdispatched
    exact hdispatched.bans
  | @unasked now text hidle hnone =>
    rw [bansAfter, concluded, d.connection.handleLine_of_request?_eq_none d.pool now hnone]
    split <;> rfl
  | wrote => exact d.bans_write _ _
  | looked => exact bans_write { d with looked := d.pool.jobs.current :: d.looked } _ _
  | @ended r =>
    rw [Connection.giveReply_nil]
    cases r.stays <;> rfl
  | @passed _ _ registry => exact bans_write { d with pool := { d.pool with registry } } _ _
  | closed => rfl
  | meanwhile => rfl

/-- A banned address that asks to subscribe or to work: nothing changes, but the notice is under way, and the
connection is to be closed after it. -/
theorem Dialogue.ask_of_isBanned {σ : Type} [Store σ] (d : Dialogue σ) (now : Nat) {method : String}
    (hbanned : d.pool.bans.isBanned d.connection.ip = true)
    (hmethod : method = "mining.subscribe" ∨ method = "mining.authorize") (id : Id) (params : Json) :
    d.ask now id method params = { d with reply := some ⟨[banNotice id], false, false, now⟩ } := by
  have hstays : ¬ d.connection.stage.Joins d.connection.stage := d.connection.stage.not_joins_self
  rw [ask, d.pool.dispatch_of_isBanned hbanned hmethod]
  simp only [decide_eq_false hstays, Bool.false_eq_true, if_false]

namespace Crowd

variable {σ : Type} {d d' : Dialogue σ} {c c' : Crowd σ} {e : Event} {es : List Event} {place : Nat} {m : Member}
  {action : Action}

/-- What an action of the connection with the given address asks for. -/
def Action.offence? (ip : Ip) : Action → Option Bans.Call
  | .line _ text => if Traffic.IsMalformed text then some (.strike ip) else none
  | .flood => some (.ban ip)
  | _ => none

/-- What an event asks for. -/
def offence? (c : Crowd σ) : Event → Option Bans.Call
  | .act place action => (c.member? place).bind fun m => action.offence? m.connection.ip
  | _ => none

/-- What the events of a run ask for, in turn. -/
def offences [Store σ] (c : Crowd σ) : List Event → List Bans.Call
  | [] => []
  | e :: es => (c.offence? e).toList ++ ((c.step? e).map fun mid => mid.offences es).getD []

variable [Store σ]

theorem Action.bans (h : action.step? d = some d') :
    d'.pool.bans = d.pool.bans.run (action.offence? d.connection.ip).toList := by
  have hafter (d : Dialogue σ) (e : Dialogue.Event σ) (h : d.step? e = some d') : d'.pool.bans = d.bansAfter e :=
    (Dialogue.stepped_of_step? h).bans
  cases action with
  | line now text =>
    rw [hafter d (.line now text) h, Dialogue.bansAfter, offence?]
    split <;> rfl
  | reply => exact hafter d .reply h
  | pass => exact hafter d .pass h
  | close => exact hafter d .close h
  | flood => exact hafter { d with pool := { d.pool with bans := d.pool.bans.ban d.connection.ip } } .close h

theorem step?_act_eq_some : c.step? (.act place action) = some c' ↔ ∃ m d, c.members[place]? = some m ∧
    m.connection.ended = none ∧ action.step? (m.dialogue c.pool) = some d ∧ c' = c.proceed place d := by
  constructor
  · intro h
    obtain ⟨m, hm, h⟩ := Option.bind_eq_some_iff.1 h
    obtain ⟨d, hd, h⟩ := Option.bind_eq_some_iff.1 h
    cases h
    obtain ⟨hm, hopen⟩ := member?_eq_some.1 hm
    exact ⟨m, d, hm, hopen, hd, rfl⟩
  · rintro ⟨m, d, hm, hopen, hd, rfl⟩
    have hm := member?_eq_some.2 ⟨hm, hopen⟩
    simp only [step?, hm, hd, Option.bind_eq_bind, Option.bind_some]
    rfl

theorem bans_step? (h : c.step? e = some c') : c'.pool.bans = c.pool.bans.run (c.offence? e).toList := by
  cases e with
  | arrive ip deadline =>
    cases h
    unfold arrive
    split <;> rfl
  | act place action =>
    obtain ⟨m, d, hm, hopen, hd, rfl⟩ := step?_act_eq_some.1 h
    rw [offence?, member?_eq_some.2 ⟨hm, hopen⟩, Option.bind_some]
    exact Action.bans hd
  | limit place room =>
    obtain ⟨m, hm, h⟩ := Option.bind_eq_some_iff.1 h
    cases h
    rfl
  | publish clean =>
    cases h
    exact (c.pool.refresh_refreshed clean).bans
  | tell id message =>
    cases h
    rfl
  | flush =>
    cases h
    rfl
  | recover chain =>
    cases h
    exact (Service.recover_outward c.pool chain).bans
  | stopRecovery =>
    cases h
    exact (Service.stopRecovery_outward c.pool).bans

/-- Who is banned after a run was banned before, or for what was done in the run. -/
theorem bans_run? (h : c.run? es = some c') : c'.pool.bans = c.pool.bans.run (c.offences es) := by
  induction es generalizing c with
  | nil =>
    cases h
    rfl
  | cons e es ih =>
    obtain ⟨mid, hmid, hrun⟩ := run?_cons_eq_some.1 h
    rw [ih hrun, bans_step? hmid, offences, hmid, Option.map_some, Option.getD_some, Bans.run_append]

/-! ### Leaving -/

/-- The event is a step of the connection of the given place. -/
def Event.isOf (place : Nat) : Event → Bool
  | .act other _ => other = place
  | _ => false

/-- All that is left for a connection is to write a message and to end.  The number is that of the steps that it
still takes at most. -/
inductive Leaves (k : Connection) (message : Message) : Nat → Member → Prop
  | writing {m : Member} {now : Nat} (hopen : m.connection.ended = none) (hstage : m.connection.stage = k.stage)
      (hsent : m.connection.sent = k.sent) (hreply : m.reply = some ⟨[message], false, false, now⟩) :
      Leaves k message 2 m
  | ending {m : Member} {now : Nat} (hopen : m.connection.ended = none) (hstage : m.connection.stage = k.stage)
      (hsent : m.connection.sent = message :: k.sent) (hreply : m.reply = some ⟨[], false, false, now⟩) :
      Leaves k message 1 m
  | left {m : Member} (hended : m.connection.ended ≠ none) (hstage : m.connection.stage = .disconnected)
      (hsent : m.connection.sent = k.sent ∨ m.connection.sent = message :: k.sent) : Leaves k message 0 m

/-- While a reply is under way nothing else is done on its connection. -/
theorem Action.goOn_of_step? {r : Reply} (hreply : d.reply = some r) (h : action.step? d = some d') :
    d' = d.goOn r := by
  have hbusy (pool : Pool σ) : ¬ ({ d with pool } : Dialogue σ).IsIdle := fun hidle => by
    have hnone : d.reply = none := hidle.1
    rw [hreply] at hnone
    cases hnone
  cases action with
  | reply =>
    have h : d.reply.map d.goOn = some d' := h
    rw [hreply] at h
    exact (Option.some.inj h).symm
  | line now text =>
    have h : d.step? (.line now text) = some d' := h
    rw [Dialogue.step?, if_neg (hbusy d.pool)] at h
    cases h
  | pass =>
    have h : d.step? .pass = some d' := h
    rw [Dialogue.step?, if_neg (hbusy d.pool)] at h
    cases h
  | close =>
    have h : d.step? .close = some d' := h
    rw [Dialogue.step?, if_neg (hbusy d.pool)] at h
    cases h
  | flood =>
    rw [step?, Dialogue.step?, if_neg (hbusy _)] at h
    cases h

variable {k : Connection} {message : Message} {n : Nat}

theorem Leaves.state (h : Leaves k message n m) :
    (m.connection.sent = k.sent ∨ m.connection.sent = message :: k.sent) ∧
      (m.connection.ended = none → m.connection.stage = k.stage ∧ 0 < n) ∧
      (m.connection.ended ≠ none → m.connection.stage = .disconnected) := by
  cases h with
  | writing hopen hstage hsent => exact ⟨.inl hsent, fun _ => ⟨hstage, by decide⟩, absurd hopen⟩
  | ending hopen hstage hsent => exact ⟨.inr hsent, fun _ => ⟨hstage, by decide⟩, absurd hopen⟩
  | left hended hstage hsent => exact ⟨hsent, fun hopen => absurd hopen hended, fun _ => hstage⟩

/-- Each step that the connection takes brings it closer to its end. -/
theorem Leaves.act (h : Leaves k message n m) (hopen : m.connection.ended = none) {pool : Pool σ}
    (hstep : action.step? (m.dialogue pool) = some d) : ∃ n' < n, Leaves k message n' (.ofDialogue d) := by
  cases h with
  | writing _ hstage hsent hreply =>
    obtain rfl := Action.goOn_of_step? hreply hstep
    obtain ⟨done, undone, room, hmessages, hwrite⟩ := m.connection.exists_write [message]
    simp only [Dialogue.goOn, Dialogue.write, Member.dialogue, hwrite]
    rcases undone with _ | ⟨first, undone⟩
    · rw [List.append_nil] at hmessages
      subst hmessages
      refine ⟨1, by decide, .ending hopen hstage ?_ rfl⟩
      show [message] ++ m.connection.sent = _
      rw [hsent, List.singleton_append]
    · -- the notice itself could not be written
      have hlength : 1 = done.length + (undone.length + 1) := by simpa using congrArg List.length hmessages
      obtain rfl : done = [] := List.eq_nil_of_length_eq_zero (by omega)
      exact ⟨0, by decide, .left (Option.some_ne_none _) rfl (.inl hsent)⟩
  | ending _ hstage hsent hreply =>
    obtain rfl := Action.goOn_of_step? hreply hstep
    exact ⟨0, by decide, .left (Option.some_ne_none _) rfl (.inr hsent)⟩
  | left hended => exact absurd hopen hended

omit [Store σ] in
theorem Leaves.limit (h : Leaves k message n m) (room : Option Nat) :
    Leaves k message n { m with connection := { m.connection with room } } := by
  cases h with
  | writing hopen hstage hsent hreply => exact .writing hopen hstage hsent hreply
  | ending hopen hstage hsent hreply => exact .ending hopen hstage hsent hreply
  | left hended hstage hsent => exact .left hended hstage hsent

omit [Store σ] in
theorem exists_action_of_isOf (h : e.isOf place = true) : ∃ action, e = .act place action := by
  cases e with
  | act other action =>
    obtain rfl : other = place := of_decide_eq_true h
    exact ⟨action, rfl⟩
  | _ => cases h

/-- What is not a step of a connection leaves it as it is, up to how much can be written. -/
theorem exists_room_of_step? (hm : c.members[place]? = some m) (hother : e.isOf place = false)
    (h : c.step? e = some c') :
    ∃ room, c'.members[place]? = some { m with connection := { m.connection with room } } := by
  have hsame (members : List Member) (h : members[place]? = c.members[place]?) :
      ∃ room, members[place]? = some { m with connection := { m.connection with room } } :=
        ⟨m.connection.room, h.trans hm⟩
  obtain ⟨hplace, -⟩ := List.getElem?_eq_some_iff.1 hm
  have hstepped := stepped_of_step? h
  cases hstepped with
  | arrived =>
    refine hsame _ ?_
    unfold arrive
    split
    · exact List.getElem?_append_left hplace
    · rfl
  | @acted acting _ _ _ hm' =>
    have hne : acting ≠ place := of_decide_eq_false hother
    exact hsame _ (List.getElem?_set_ne hne)
  | @limited limited room m' hm' =>
    by_cases hlimited : limited = place
    · subst hlimited
      rw [hm] at hm'
      cases hm'
      exact ⟨room, List.getElem?_set_self hplace⟩
    · exact hsame _ (List.getElem?_set_ne hlimited)
  | published => exact hsame _ rfl
  | told => exact hsame _ rfl
  | flushed => exact hsame _ rfl
  | outward => exact hsame _ rfl

/-- However a run goes on, a connection that is leaving takes no more steps than it needs to. -/
theorem Leaves.run? (h : Leaves k message n m) (hm : c.members[place]? = some m) (hrun : c.run? es = some c') :
    ∃ n' m', c'.members[place]? = some m' ∧ Leaves k message n' m' ∧ n' + es.countP (Event.isOf place) ≤ n := by
  induction es generalizing c m n with
  | nil =>
    cases hrun
    exact ⟨n, m, hm, h, le_rfl⟩
  | cons e es ih =>
    obtain ⟨mid, hmid, hrest⟩ := run?_cons_eq_some.1 hrun
    by_cases hof : e.isOf place = true
    · obtain ⟨action, rfl⟩ := exists_action_of_isOf hof
      obtain ⟨m₀, d, hm₀, hopen, hd, rfl⟩ := step?_act_eq_some.1 hmid
      rw [hm] at hm₀
      cases hm₀
      obtain ⟨n₁, hless, hleaves⟩ := h.act hopen hd
      obtain ⟨hplace, -⟩ := List.getElem?_eq_some_iff.1 hm
      obtain ⟨n', m', hm', hleaves', hle⟩ := ih hleaves (List.getElem?_set_self hplace) hrest
      refine ⟨n', m', hm', hleaves', ?_⟩
      rw [List.countP_cons_of_pos hof]
      omega
    · obtain ⟨room, hm'⟩ := exists_room_of_step? hm (Bool.not_eq_true _ ▸ hof) hmid
      rw [List.countP_cons_of_neg hof]
      exact ih (h.limit room) hm' hrest

/-- A connection that is leaving can always take its next step. -/
theorem Leaves.exists_step (h : Leaves k message n m) (hm : c.members[place]? = some m)
    (hopen : m.connection.ended = none) : ∃ c', c.step? (.act place .reply) = some c' := by
  have hgoes {r : Reply} (hreply : m.reply = some r) : Action.step? (m.dialogue c.pool) .reply =
      some ((m.dialogue c.pool).goOn r) := congrArg (Option.map _) hreply
  cases h with
  | writing _ _ _ hreply => exact ⟨_, step?_act_eq_some.2 ⟨m, _, hm, hopen, hgoes hreply, rfl⟩⟩
  | ending _ _ _ hreply => exact ⟨_, step?_act_eq_some.2 ⟨m, _, hm, hopen, hgoes hreply, rfl⟩⟩
  | left hended => exact absurd hopen hended

/-- What a banned address asks for changes nothing but that its connection is leaving. -/
theorem member_of_isBanned {now : Nat} {text : String} {id : Id} {method : String} {params : Json}
    (hm : c.members[place]? = some m) (hbanned : c.pool.bans.isBanned m.connection.ip = true)
    (hrequest : Traffic.request? text = some (id, method, params))
    (hmethod : method = "mining.subscribe" ∨ method = "mining.authorize")
    (h : c.step? (.act place (.line now text)) = some c') :
    c'.pool = c.pool ∧ m.connection.ended = none ∧
      c'.members[place]? = some { m with reply := some ⟨[banNotice id], false, false, now⟩ } := by
  obtain ⟨m₀, d, hm₀, hopen, hd, rfl⟩ := step?_act_eq_some.1 h
  rw [hm] at hm₀
  cases hm₀
  obtain ⟨hplace, -⟩ := List.getElem?_eq_some_iff.1 hm
  have hstepped : (m.dialogue c.pool).Stepped (.line now text) d := Dialogue.stepped_of_step? hd
  cases hstepped with
  | asked _ hrequest' =>
    rw [hrequest] at hrequest'
    cases hrequest'
    rw [Dialogue.ask_of_isBanned (m.dialogue c.pool) now hbanned hmethod]
    exact ⟨rfl, hopen, List.getElem?_set_self hplace⟩
  | unasked _ hnone =>
    rw [hrequest] at hnone
    cases hnone

/-- Bans are exact: an address is banned exactly if it was banned outright or struck often enough, a strike says
which, what is done to others does not matter, and no counter overflows.  And bans are for ever: in a run of a
pool, who is banned is what the offences until then say, and when a connection of a banned address asks to
subscribe or to work, then nobody is issued an extranonce or registered, and all that the connection can do any
more is to write that its address is banned and to end, which it does with its second step at the latest. -/
theorem refuses_banned :
    (∀ (limit : Nat) (calls : List Bans.Call) (ip : Ip),
      ((Bans.after limit calls).isBanned ip = true ↔ .ban ip ∈ calls ∨ max limit 1 ≤ calls.count (.strike ip)) ∧
      (((Bans.after limit calls).strike ip).1 = .ban ↔
        (Bans.after limit (calls ++ [.strike ip])).isBanned ip = true) ∧
      (∀ call : Bans.Call, call.address ≠ ip →
        (Bans.after limit (calls ++ [call])).isBanned ip = (Bans.after limit calls).isBanned ip ∧
        (Bans.after limit (calls ++ [call])).count ip = (Bans.after limit calls).count ip ∧
        ((Bans.after limit (calls ++ [call])).strike ip).1 = ((Bans.after limit calls).strike ip).1) ∧
      (limit < UInt32.size → (Bans.after limit calls).count ip + 1 < UInt32.size)) ∧
    ∀ (p : Pool σ) (front back : List Event) (mid c : Crowd σ), p.IsFresh → (ofPool p).run? front = some mid →
      mid.run? back = some c →
      c.pool.bans = Bans.after p.settings.malformedLimit ((ofPool p).offences (front ++ back)) ∧
      ∀ (place now : Nat) (m : Member) (text : String) (id : Id) (method : String) (params : Json) (c' : Crowd σ),
        c.members[place]? = some m → mid.pool.bans.isBanned m.connection.ip = true →
        Traffic.request? text = some (id, method, params) →
        (method = "mining.subscribe" ∨ method = "mining.authorize") →
        c.step? (.act place (.line now text)) = some c' →
        c'.pool = c.pool ∧
        c'.members[place]? = some { m with reply := some ⟨[banNotice id], false, false, now⟩ } ∧
        ∀ (es : List Event) (c'' : Crowd σ), c'.run? es = some c'' → ∃ m', c''.members[place]? = some m' ∧
          (m'.connection.sent = m.connection.sent ∨ m'.connection.sent = banNotice id :: m.connection.sent) ∧
          (m'.connection.ended = none → m'.connection.stage = m.connection.stage ∧
            es.countP (Event.isOf place) < 2 ∧ ∃ next, c''.step? (.act place .reply) = some next) ∧
          (m'.connection.ended ≠ none → m'.connection.stage = .disconnected) := by
  refine ⟨fun limit calls ip =>
    ⟨Bans.isBanned_after_iff limit calls ip, ?_, fun call hne => ?_, fun hlimit => ?_⟩, ?_⟩
  · rw [Bans.after_append]
    exact Bans.strike_fst_eq_ban_iff _ ip
  · have hbanned := Bans.isBanned_call_of_ne (Bans.after limit calls) hne
    have hcount := Bans.count_call_of_ne (Bans.after limit calls) hne
    rw [Bans.after_append]
    exact ⟨hbanned, hcount, Bans.strike_fst_congr (Bans.limit_call _ call) hbanned hcount⟩
  · have hlt := Bans.count_after_lt limit calls ip
    have hsize : 1 < UInt32.size := by decide
    omega
  intro p front back mid c hfresh hfront hback
  have hrun : (ofPool p).run? (front ++ back) = some c := by
    rw [run?_append, hfront]
    exact hback
  have hbans {es : List Event} {c : Crowd σ} (h : (ofPool p).run? es = some c) :
      c.pool.bans = Bans.after p.settings.malformedLimit ((ofPool p).offences es) :=
    (bans_run? h).trans (congrArg (Bans.run · _) hfresh.bans)
  refine ⟨hbans hrun, ?_⟩
  intro place now m text id method params c' hm hbanned hrequest hmethod hstep
  have hstill : c.pool.bans.isBanned m.connection.ip = true := by
    rw [bans_run? hback, hbans hfront]
    rw [hbans hfront] at hbanned
    exact Bans.isBanned_run_of_isBanned hbanned _
  obtain ⟨hpool, hopen, hm'⟩ := member_of_isBanned hm hstill hrequest hmethod hstep
  refine ⟨hpool, hm', fun es c'' hrest => ?_⟩
  have hleaves : Leaves m.connection (banNotice id) 2 { m with reply := some ⟨[banNotice id], false, false, now⟩ } :=
    .writing hopen rfl rfl rfl
  obtain ⟨n, m'', hm'', hleaves', hle⟩ := hleaves.run? hm' hrest
  obtain ⟨hsent, hstays, hgone⟩ := hleaves'.state
  refine ⟨m'', hm'', hsent, fun hopen' => ?_, hgone⟩
  obtain ⟨hstage, hpos⟩ := hstays hopen'
  exact ⟨hstage, by omega, hleaves'.exists_step hm'' hopen'⟩

/-- A miner floods the pool. -/
def sampleFlood : List Event := [.arrive (.four [10, 0, 0, 1]) 600, .act 0 .flood]

/-- The line of a miner that asks to subscribe. -/
def sampleSubscribe : String := "\x7b\"id\":\"a\",\"method\":\"mining.subscribe\",\"params\":[]\x7d"

/-- The miner of the sample floods the pool, comes again, asks to subscribe and is sent away. -/
theorem refuses_banned_sample : ∃ (mid c c' c'' : Crowd Ledger) (m m' : Member),
    (ofPool samplePool).run? sampleFlood = some mid ∧ mid.run? [.arrive (.four [10, 0, 0, 1]) 600] = some c ∧
    c.members[1]? = some m ∧ mid.pool.bans.isBanned m.connection.ip = true ∧
    c.step? (.act 1 (.line 0 sampleSubscribe)) = some c' ∧ c'.pool = c.pool ∧
    c'.run? [.act 1 .reply, .act 1 .reply] = some c'' ∧ c''.members[1]? = some m' ∧
    m'.connection.stage = .disconnected := by
  have hflood : ((ofPool samplePool).run? sampleFlood).map (fun c => c.pool.bans.isBanned (.four [10, 0, 0, 1])) =
      some true := by decide +kernel
  obtain ⟨mid, hmid, hbanned⟩ := Option.map_eq_some_iff.1 hflood
  have hback : ((ofPool samplePool).run? (sampleFlood ++ [.arrive (.four [10, 0, 0, 1]) 600])).bind (fun c =>
      c.members[1]?.map fun m => m.connection.ip) = some (.four [10, 0, 0, 1]) := by decide +kernel
  rw [run?_append, hmid, Option.bind_some] at hback
  obtain ⟨c, hc, hm⟩ := Option.bind_eq_some_iff.1 hback
  obtain ⟨m, hm, hip⟩ := Option.map_eq_some_iff.1 hm
  have hleft : ((ofPool samplePool).run? (sampleFlood ++ ([.arrive (.four [10, 0, 0, 1]) 600] ++
      ([.act 1 (.line 0 sampleSubscribe)] ++ [.act 1 .reply, .act 1 .reply])))).bind (fun c =>
      c.members[1]?.map fun m => m.connection.ended) = some (some .inOrder) := by decide +kernel
  rw [run?_append, hmid, Option.bind_some, run?_append, hc, Option.bind_some, run?_append] at hleft
  obtain ⟨c'', hc'', hm'⟩ := Option.bind_eq_some_iff.1 hleft
  obtain ⟨c', hc', hrest⟩ := Option.bind_eq_some_iff.1 hc''
  obtain ⟨_, hstep, hsame⟩ := run?_cons_eq_some.1 hc'
  cases hsame
  obtain ⟨m₀, hm₀, hended⟩ := Option.map_eq_some_iff.1 hm'
  have hread : (Traffic.request? sampleSubscribe).map (fun r => (r.1, r.2.1)) =
      some (.text "a", "mining.subscribe") := by
    decide +kernel
  obtain ⟨⟨id, method, params⟩, hrequest, hasked⟩ := Option.map_eq_some_iff.1 hread
  obtain ⟨rfl, rfl⟩ := Prod.mk.inj hasked
  rw [← hip] at hbanned
  obtain ⟨-, hrefused⟩ := refuses_banned.2 samplePool sampleFlood _ mid c samplePool_isFresh hmid hc
  obtain ⟨hpool, -, hleaves⟩ := hrefused 1 0 m _ _ _ params c' hm hbanned hrequest (.inl rfl) hstep
  obtain ⟨m', hm', -, -, hgone⟩ := hleaves _ c'' hrest
  rw [hm'] at hm₀
  cases hm₀
  exact ⟨mid, c, c', c'', m, _, hmid, hc, hm, hbanned, hstep, hpool, hrest, hm', hgone (by rw [hended]; nofun)⟩

end Crowd

end MergedMining
