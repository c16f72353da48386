import Mathlib.Data.List.Induction
import Mathlib.Logic.Relation
import MergedMining.Proofs.Pool.Ground

/-!
# The history of a connection

A connection subscribes, then authorizes, and in the end is disconnected; it never goes back (`reaches_run`).
Whatever its stage says that it was given goes back to what it asked for before (`explained_run`): a
subscription to the request that was answered with its extranonce, and a session to a later request with a login
that fits the chains of the pool.
-/

namespace MergedMining

open Stratum (Id Message)

/-! ### Stages -/

namespace Stage

/-- What a miner was given when it subscribed. -/
def subscription? : Stage → Option Subscription
  | .connected => none
  | .subscribed subscription => some subscription
  | .authorized session => some session.toSubscription
  | .disconnected => none

/-- The moves of a connection from one stage to another. -/
inductive Move : Stage → Stage → Prop
  | subscribe (subscription : Subscription) : Move .connected (.subscribed subscription)
  | authorize (subscription : Subscription) (login : Login) :
      Move (.subscribed subscription) (.authorized ⟨subscription, login⟩)
  | disconnect (stage : Stage) : Move stage .disconnected

/-- Some moves lead from one stage to another. -/
def Reaches : Stage → Stage → Prop := Relation.ReflTransGen Move

/-- The place of a stage in the order of stages. -/
def rank : Stage → Nat
  | .connected => 0
  | .subscribed _ => 1
  | .authorized _ => 2
  | .disconnected => 3

theorem Move.eq_or_rank_lt {stage stage' : Stage} (h : stage.Move stage') :
    stage' = stage ∨ stage.rank < stage'.rank := by
  cases h with
  | subscribe => exact .inr Nat.zero_lt_one
  | authorize => exact .inr Nat.one_lt_two
  | disconnect =>
    cases stage with
    | disconnected => exact .inl rfl
    | _ => exact .inr (by simp [rank])

/-- No moves lead back. -/
theorem Reaches.eq_or_rank_lt {stage stage' : Stage} (h : stage.Reaches stage') :
    stage' = stage ∨ stage.rank < stage'.rank := by
  induction h with
  | refl => exact .inl rfl
  | tail _ hmove ih =>
    rcases hmove.eq_or_rank_lt with rfl | hlt
    · exact ih
    · rcases ih with rfl | hbefore
      · exact .inr hlt
      · exact .inr (Nat.lt_trans hbefore hlt)

end Stage

namespace Traffic

variable {σ : Type} [Store σ] {t t' : Traffic σ} {e : Traffic.Event} {place : Nat} {c c' : Connection}

/-! ### Requests that move a connection on -/

/-- A line is a request of a connection, and this is the connection after it. -/
structure Handles (t : Traffic σ) (e : Event) (place : Nat) (c c' : Connection) (id : Id) (method : String)
    (params : Json) : Prop where
  line : ∃ now text, e = .line place now text ∧ request? text = some (id, method, params)
  before : t.connection? place = some c
  after : (t.step e).connections[place]? = some c'

/-- A connection asks for a subscription and is answered with its extranonce, which was drawn for it. -/
structure Subscribes (t : Traffic σ) (e : Event) (place : Nat) (subscription : Subscription) : Prop where
  answered : ∃ c c' id params, t.Handles e place c c' id "mining.subscribe" params ∧ c.stage = .connected ∧
    Stratum.Subscribe.ofJson params = .ok ⟨subscription.userAgent⟩ ∧ c'.stage = .subscribed subscription ∧
    c'.sent = Message.result id (Stratum.SubscribeResult.ofSession (t.pool.sessionName subscription.id)
      subscription.extranonce1 (UInt32.ofNat t.pool.extranonces.minerSize)).toJson :: c.sent
  drawn : t.pool.extranonces.allocate t.pool.draws = (.ok subscription.extranonce1, (t.step e).pool.extranonces)

/-- A subscribed connection asks to work for a login that fits the chains of the pool, and may. -/
structure Authorizes (t : Traffic σ) (e : Event) (place : Nat) (session : Session) : Prop where
  answered : ∃ c c' id params request more, t.Handles e place c c' id "mining.authorize" params ∧
    c.stage = .subscribed session.toSubscription ∧ Stratum.Authorize.ofJson params = .ok request ∧
    Login.parse request.username = .ok session.login ∧ c'.stage = .authorized session ∧
    c'.sent = more ++ Message.result id (.bool true) :: c.sent
  fits : session.login.check t.pool.loginChains = .ok ()

/-- What an event does to the stage of the connection at a place. -/
inductive Advanced (t : Traffic σ) (e : Event) (place : Nat) (c' : Connection) : Prop
  | new (hnone : t.connections[place]? = none) (hstage : c'.stage = .connected)
  | stayed {c : Connection} (hc : t.connections[place]? = some c) (hstage : c'.stage = c.stage)
  | ended {c : Connection} (hc : t.connections[place]? = some c) (hstage : c'.stage = .disconnected)
  | subscribed {c : Connection} {subscription : Subscription} (hc : t.connections[place]? = some c)
      (hbefore : c.stage = .connected) (hafter : c'.stage = .subscribed subscription)
      (h : t.Subscribes e place subscription)
  | authorized {c : Connection} {session : Session} (hc : t.connections[place]? = some c)
      (hbefore : c.stage = .subscribed session.toSubscription) (hafter : c'.stage = .authorized session)
      (h : t.Authorizes e place session)

omit [Store σ] in
theorem getElem?_of_connection? (hc : t.connection? place = some c) : t.connections[place]? = some c :=
  (Option.filter_eq_some_iff.1 hc).1

omit [Store σ] in
private theorem login_eq_ok {p : Pool σ} {username : String} {login : Login} (h : p.login username = .ok login) :
    Login.parse username = .ok login ∧ login.check p.loginChains = .ok () := by
  obtain ⟨login', hparse, h⟩ := Outcome.bind_eq_ok.1 h
  obtain ⟨_, hcheck, h⟩ := Outcome.bind_eq_ok.1 h
  cases h
  exact ⟨hparse, hcheck⟩

private theorem advanced_of_dispatched {now : Nat} {text : String} {id : Id} {method : String} {params : Json}
    {reaction : Reaction} {stage : Stage} {p q : Pool σ} (hc : t.connection? place = some c)
    (hrequest : request? text = some (id, method, params))
    (hstep : t.step (.line place now text) = ⟨q, t.connections.set place c'⟩)
    (h : t.pool.Dispatched c.ip c.stage id method params (reaction, stage, p)) (hq : p.Quiet q)
    (hstays : c.Stays c' stage) (hsent : c'.stage ≠ .disconnected → c'.sent = reaction.messages.reverse ++ c.sent) :
    t.Advanced (.line place now text) place c' := by
  have hold := getElem?_of_connection? hc
  obtain ⟨hplace, -⟩ := List.getElem?_eq_some_iff.1 hold
  have hhandles : t.Handles (.line place now text) place c c' id method params :=
    ⟨⟨now, text, rfl, hrequest⟩, hc, by rw [hstep]; exact List.getElem?_set_self hplace⟩
  -- a connection that moved on is still open, so all that it was answered has been sent
  rcases hstays.stage with hstage | hstage
  · cases h with
    | answered => exact .stayed hold hstage
    | exhausted => exact .stayed hold hstage
    | subscribed hmethod _ hbefore hdraw hread =>
      subst hmethod
      have hanswer := hsent (by rw [hstage]; nofun)
      rw [(Extranonces.allocate_grows hdraw).minerSize] at hanswer
      obtain ⟨_, _, rfl⟩ := hq
      exact .subscribed hold hbefore hstage
        ⟨⟨c, c', id, params, hhandles, hbefore, hread, hstage, hanswer⟩, by rw [hstep]; exact hdraw⟩
    | authorized hmethod _ hbefore hlogin hread =>
      subst hmethod
      have hanswer := hsent (by rw [hstage]; nofun)
      rw [List.reverse_cons, List.append_assoc, List.singleton_append] at hanswer
      obtain ⟨hparse, hcheck⟩ := login_eq_ok hlogin
      exact .authorized hold hbefore hstage
        ⟨⟨c, c', id, params, _, _, hhandles, hbefore, hread, hparse, hstage, hanswer⟩, hcheck⟩
    | submitted => exact .stayed hold hstage
  · exact .ended hold hstage

/-- The stage of a connection after an event: a new connection has not subscribed, and an old one moves on at most. -/
theorem advanced_step (hc' : (t.step e).connections[place]? = some c') : t.Advanced e place c' := by
  have hstepped := t.step_stepped e
  generalize hstep : t.step e = t' at hstepped hc'
  -- a connection at another place is as before
  have helsewhere : ∀ {at' : Nat} {d : Connection}, at' ≠ place → (t.connections.set at' d)[place]? = some c' →
      t.Advanced e place c' := by
    intro at' d hne hget
    rw [List.getElem?_set_ne hne] at hget
    exact .stayed hget rfl
  have hplaced : ∀ {d d' : Connection}, t.connection? place = some d →
      (t.connections.set place d')[place]? = some c' → d' = c' := by
    intro d d' hd hget
    obtain ⟨hplace, -⟩ := List.getElem?_eq_some_iff.1 (getElem?_of_connection? hd)
    rw [List.getElem?_set_self hplace] at hget
    exact Option.some.inj hget
  cases hstepped with
  | idle => exact .stayed hc' rfl
  | connected =>
    rcases Nat.lt_or_ge place t.connections.length with hlt | hge
    · rw [List.getElem?_append_left hlt] at hc'
      exact .stayed hc' rfl
    · rw [List.getElem?_append_right hge] at hc'
      obtain rfl := List.mem_singleton.1 (List.mem_of_getElem? hc')
      exact .new (List.getElem?_eq_none_iff.2 hge) rfl
  | @quiet _ at' d d' _ _ _ hd _ hstays =>
    by_cases hat : at' = place
    · subst hat
      obtain rfl := hplaced hd hc'
      rcases hstays.stage with hstage | hstage
      · exact .stayed (getElem?_of_connection? hd) hstage
      · exact .ended (getElem?_of_connection? hd) hstage
    · exact helsewhere hat hc'
  | @requested at' _ _ d d' _ _ _ _ _ _ _ hd hrequest h hq hstays hsent =>
    by_cases hat : at' = place
    · subst hat
      obtain rfl := hplaced hd hc'
      exact advanced_of_dispatched hd hrequest hstep h hq hstays hsent
    · exact helsewhere hat hc'
  | refreshed => exact .stayed hc' rfl
  | flushed => exact .stayed hc' rfl
  | outward => exact .stayed hc' rfl

/-! ### Runs -/

theorem run_append (t : Traffic σ) (es es' : List Event) : t.run (es ++ es') = (t.run es).run es' :=
  List.foldl_append

theorem run_concat (t : Traffic σ) (es : List Event) (e : Event) : t.run (es ++ [e]) = (t.run es).step e :=
  t.run_append es [e]

/-- A connection was given a subscription in the course of a run. -/
def HasSubscribed (t : Traffic σ) (es : List Event) (place : Nat) (subscription : Subscription) : Prop :=
  ∃ before e after, es = before ++ e :: after ∧ (t.run before).Subscribes e place subscription

/-- A connection was given a session in the course of a run, and the subscription that belongs to it before. -/
def HasAuthorized (t : Traffic σ) (es : List Event) (place : Nat) (session : Session) : Prop :=
  ∃ before e after, es = before ++ e :: after ∧ (t.run before).Authorizes e place session ∧
    t.HasSubscribed before place session.toSubscription

/-- What a stage says that a connection was given, it was given in the course of a run. -/
def Explained (t : Traffic σ) (es : List Event) (place : Nat) : Stage → Prop
  | .connected => True
  | .subscribed subscription => t.HasSubscribed es place subscription
  | .authorized session => t.HasAuthorized es place session
  | .disconnected => True

theorem HasSubscribed.append {es : List Event} {subscription : Subscription}
    (h : t.HasSubscribed es place subscription) (es' : List Event) :
    t.HasSubscribed (es ++ es') place subscription := by
  obtain ⟨before, e, after, rfl, h⟩ := h
  exact ⟨before, e, after ++ es', by rw [List.append_assoc, List.cons_append], h⟩

theorem HasSubscribed.length {es : List Event} {place : Nat} {subscription : Subscription}
    (hdraws : ∀ k size, (t.pool.draws k size).length = size) (h : t.HasSubscribed es place subscription) :
    subscription.extranonce1.bytes.length = t.pool.extranonces.ownSize := by
  obtain ⟨before, e, _, -, h⟩ := h
  have hground := ground_run t before
  have hsame : (t.run before).pool.draws = t.pool.draws := congrArg Ground.draws hground
  have hown : (t.run before).pool.extranonces.ownSize = t.pool.extranonces.ownSize := congrArg Ground.ownSize hground
  rw [← hown]
  exact Extranonces.allocate_length (by rw [hsame]; exact hdraws) h.drawn

theorem HasAuthorized.append {es : List Event} {session : Session} (h : t.HasAuthorized es place session)
    (es' : List Event) : t.HasAuthorized (es ++ es') place session := by
  obtain ⟨before, e, after, rfl, h⟩ := h
  exact ⟨before, e, after ++ es', by rw [List.append_assoc, List.cons_append], h⟩

theorem Explained.hasSubscribed {es : List Event} {stage : Stage} {subscription : Subscription}
    (h : t.Explained es place stage) (hstage : stage.subscription? = some subscription) :
    t.HasSubscribed es place subscription := by
  cases stage with
  | connected => cases hstage
  | subscribed =>
    cases hstage
    exact h
  | authorized =>
    cases hstage
    obtain ⟨before, e, after, rfl, -, hsubscribed⟩ := h
    exact hsubscribed.append _
  | disconnected => cases hstage

theorem Explained.append {es : List Event} {stage : Stage} (h : t.Explained es place stage) (es' : List Event) :
    t.Explained (es ++ es') place stage := by
  cases stage with
  | connected => trivial
  | subscribed => exact HasSubscribed.append h es'
  | authorized => exact HasAuthorized.append h es'
  | disconnected => trivial

/-- In a run from nobody on, every connection was given what its stage says. -/
theorem explained_run (p : Pool σ) (es : List Event) (hc : ((ofPool p).run es).connections[place]? = some c) :
    (ofPool p).Explained es place c.stage := by
  induction es using List.reverseRecOn generalizing c with
  | nil => cases hc
  | append_singleton es e ih =>
    rw [run_append] at hc
    rcases advanced_step (t := (ofPool p).run es) hc with ⟨-, hstage⟩ | ⟨hold, hstage⟩ | ⟨-, hstage⟩ |
      ⟨-, -, hstage, h⟩ | ⟨hold, hbefore, hstage, h⟩
    · rw [hstage]
      trivial
    · rw [hstage]
      exact (ih hold).append _
    · rw [hstage]
      trivial
    · rw [hstage]
      exact ⟨es, e, [], rfl, h⟩
    · have hsubscribed := ih hold
      rw [hbefore] at hsubscribed
      rw [hstage]
      exact ⟨es, e, [], rfl, h, hsubscribed⟩

/-- A connection moves on at most. -/
theorem Advanced.reaches (h : t.Advanced e place c') (hc : t.connections[place]? = some c) :
    c.stage.Reaches c'.stage := by
  have hsame : ∀ {d : Connection}, t.connections[place]? = some d → d = c := fun hd =>
    Option.some.inj (hd.symm.trans hc)
  rcases h with ⟨hnone, -⟩ | ⟨hold, hstage⟩ | ⟨hold, hstage⟩ | @⟨_, subscription, hold, hbefore, hstage, -⟩ |
    @⟨_, session, hold, hbefore, hstage, -⟩
  · rw [hc] at hnone
    cases hnone
  all_goals
    obtain rfl := hsame hold
    rw [hstage]
  · exact .refl
  · exact .single (.disconnect _)
  · rw [hbefore]
    exact .single (.subscribe subscription)
  · rw [hbefore]
    exact .single (.authorize session.toSubscription session.login)

/-- No connection is forgotten. -/
private theorem length_le_step (t : Traffic σ) (e : Event) :
    t.connections.length ≤ (t.step e).connections.length := by
  have hstepped := t.step_stepped e
  generalize t.step e = t' at hstepped
  cases hstepped with
  | connected =>
    show _ ≤ (t.connections ++ _).length
    rw [List.length_append]
    exact Nat.le_add_right _ _
  | quiet => exact Nat.le_of_eq List.length_set.symm
  | requested => exact Nat.le_of_eq List.length_set.symm
  | _ => exact Nat.le_refl _

/-- Every connection only ever moves on. -/
theorem reaches_run (es : List Event) (hc : t.connections[place]? = some c) :
    ∃ c', (t.run es).connections[place]? = some c' ∧ c.stage.Reaches c'.stage := by
  induction es using List.reverseRecOn with
  | nil => exact ⟨c, hc, .refl⟩
  | append_singleton es e ih =>
    obtain ⟨d, hd, hreaches⟩ := ih
    obtain ⟨hplace, -⟩ := List.getElem?_eq_some_iff.1 hd
    have hlater := List.getElem?_eq_getElem (Nat.lt_of_lt_of_le hplace (length_le_step _ e))
    rw [run_append]
    exact ⟨_, hlater, hreaches.trans ((advanced_step hlater).reaches hd)⟩

end Traffic

end MergedMining
