import MergedMining.Proofs.Pool.Crowd
import MergedMining.Proofs.Pool.Steady

/-!
# Nothing of a connection outlives it

The registered sessions are those of the open connections that may work, however others end, and the counter of
a pool is the number of the connections that are being served (`Crowd.isAttended_run`).  Every step is that a
miner comes, that one connection goes on, or that the pool changes elsewhere (`Stepped.moves`), and the first
two are the only ones that concern the registered sessions.
-/

namespace MergedMining

open Stratum (Id Message)

/-! ### Registered sessions -/

/-- The session of a connection that may work. -/
def Stage.workingId? : Stage → Option SessionId
  | .authorized session => some session.id
  | _ => none

theorem Stage.sessionId?_of_workingId? {stage : Stage} {id : SessionId} (h : stage.workingId? = some id) :
    stage.sessionId? = some id := by
  cases stage with
  | authorized session => exact h
  | _ => cases h

namespace Registry

variable {r r' : Registry} {S S' : SessionId → Prop}

/-- The given sessions are registered and have a mailbox, and no others. -/
def Keeps (r : Registry) (S : SessionId → Prop) : Prop :=
  ∀ id, (id ∈ r.registered ↔ S id) ∧ ((r.mailbox? id).isSome ↔ S id)

theorem keeps_empty : Registry.empty.Keeps fun _ => False := by
  intro id
  simp [empty, mailbox?]

theorem Keeps.congr (h : r.Keeps S) (hiff : ∀ id, S id ↔ S' id) : r.Keeps S' :=
  fun id => ⟨(h id).1.trans (hiff id), (h id).2.trans (hiff id)⟩

theorem Keeps.setMailbox (h : r.Keeps S) {id : SessionId} (hid : S id) (box : Mailbox) :
    (r.setMailbox id box).Keeps S := by
  intro other
  refine ⟨(h other).1, ?_⟩
  by_cases heq : other = id
  · subst heq
    simp [hid]
  · rw [mailbox?_setMailbox_of_ne heq]
    exact (h other).2

theorem Keeps.insert (h : r.Keeps S) (id : SessionId) (capacity : Nat) :
    (r.insert id capacity).Keeps fun other => S other ∨ other = id := by
  intro other
  by_cases heq : other = id
  · subst heq
    simp [mem_registered_insert]
  · have hregistered : other ∈ (r.insert id capacity).registered ↔ other ∈ r.registered := by
      unfold Registry.insert
      dsimp only
      split
      · rfl
      · simp [heq]
    have hmailbox : (r.insert id capacity).mailbox? other = r.mailbox? other := mailbox?_setMailbox_of_ne heq r _
    rw [hregistered, hmailbox]
    simpa [heq] using h other

theorem Keeps.leave (h : r.Keeps S) (id : SessionId) :
    ((r.remove id).close id).Keeps fun other => S other ∧ other ≠ id := by
  intro other
  refine ⟨?_, ?_⟩
  · simp [Registry.close, Registry.remove, (h other).1]
  · have hmailbox : ((r.remove id).close id).mailbox? other = if other = id then none else r.mailbox? other := by
      by_cases heq : other = id
      · subst heq
        rw [if_pos rfl, mailbox?, List.lookup_eq_none_iff]
        intro entry hentry
        simpa using Ne.symm (by simpa using (List.mem_filter.1 hentry).2)
      · rw [if_neg heq]
        exact lookup_filter_of_ne heq r.mailboxes
    rw [hmailbox]
    by_cases heq : other = id
    · simp [heq]
    · simpa [heq] using (h other).2

/-- A message may be posted to whomever, also to one that has left in the meantime. -/
theorem Keeps.post (h : r.Keeps S) (message : Message) (id : SessionId) : (r.post message id).2.Keeps S := by
  rcases hbox : r.mailbox? id with _ | box
  · have hid : ¬ S id := by
      rw [← (h id).2, hbox]
      exact nofun
    have hpost : (r.post message id).2 = r.remove id := by simp only [Registry.post, hbox]
    rw [hpost]
    intro other
    refine ⟨?_, (h other).2⟩
    by_cases heq : other = id
    · simp [Registry.remove, heq, hid]
    · simp [Registry.remove, heq, (h other).1]
  · have hid : S id := by
      rw [← (h id).2, hbox]
      rfl
    simp only [Registry.post, hbox]
    split
    · exact h.setMailbox hid _
    · exact h

theorem Keeps.receive (h : r.Keeps S) {id : SessionId} {message : Message}
    (hreceive : r.receive id = (some message, r')) : r'.Keeps S := by
  obtain ⟨box, rest, hbox, -, rfl⟩ := receive_eq_some hreceive
  refine h.setMailbox ?_ _
  rw [← (h id).2, hbox]
  rfl

end Registry

/-! ### What one connection does -/

/-- A connection that ended is disconnected, and one that did not is not. -/
def Connection.IsSettled (k : Connection) : Prop := k.ended.isSome ↔ k.stage = .disconnected

theorem Connection.IsSettled.of_ne {k : Connection} (h : k.IsSettled) (hk : k.stage ≠ .disconnected) {stage : Stage}
    (hstage : stage ≠ .disconnected) : { k with stage }.IsSettled :=
  iff_of_false (fun hended => hk (h.1 hended)) hstage

namespace Pool

variable {σ : Type} {p q r : Pool σ} {k k' k'' : Connection}

/-- What a connection does as far as others are concerned: it holds the session that it held, or a new one, and
exactly if it may work it is registered, whoever else is. -/
structure Turn (p : Pool σ) (k k' : Connection) (q : Pool σ) : Prop where
  ground : q.ground = p.ground
  nextSession_le : p.nextSession ≤ q.nextSession
  session : ∀ id, k'.stage.sessionId? = some id →
    k.stage.sessionId? = some id ∨ p.nextSession ≤ id ∧ id < q.nextSession
  settled : k.IsSettled → k'.IsSettled
  registry : ∀ S : SessionId → Prop, (∀ id, S id → id < p.nextSession ∧ k.stage.sessionId? ≠ some id) →
    p.registry.Keeps (fun id => S id ∨ k.stage.workingId? = some id) →
    q.registry.Keeps (fun id => S id ∨ k'.stage.workingId? = some id)

namespace Turn

/-- The connection stays in its stage, and the same sessions are registered. -/
theorem of_stage (hground : q.ground = p.ground) (hnext : q.nextSession = p.nextSession)
    (hregistry : ∀ S, p.registry.Keeps S → q.registry.Keeps S) (hstage : k'.stage = k.stage)
    (hended : k'.ended = k.ended) : p.Turn k k' q where
  ground := hground
  nextSession_le := Nat.le_of_eq hnext.symm
  session := by
    rw [hstage]
    exact fun id hid => .inl hid
  settled := by
    unfold Connection.IsSettled
    rw [hstage, hended]
    exact id
  registry := by
    rw [hstage]
    exact fun S _ => hregistry _

theorem trans (h : p.Turn k k' q) (h' : q.Turn k' k'' r) : p.Turn k k'' r where
  ground := h'.ground.trans h.ground
  nextSession_le := Nat.le_trans h.nextSession_le h'.nextSession_le
  session := by
    intro id hid
    rcases h'.session id hid with hmid | ⟨hle, hlt⟩
    · rcases h.session id hmid with hold | ⟨hle, hlt⟩
      · exact .inl hold
      · exact .inr ⟨hle, Nat.lt_of_lt_of_le hlt h'.nextSession_le⟩
    · exact .inr ⟨Nat.le_trans h.nextSession_le hle, hlt⟩
  settled := fun hk => h'.settled (h.settled hk)
  registry := by
    intro S hS hkeeps
    refine h'.registry S (fun id hid => ?_) (h.registry S hS hkeeps)
    obtain ⟨hlt, hne⟩ := hS id hid
    refine ⟨Nat.lt_of_lt_of_le hlt h.nextSession_le, fun hmid => ?_⟩
    rcases h.session id hmid with hold | ⟨hle, -⟩
    · exact hne hold
    · exact Nat.not_lt_of_le hle hlt

/-- A connection that ends is registered no more, and nobody else is affected. -/
theorem finish (p : Pool σ) (k : Connection) (ending : Ending) :
    p.Turn k (k.finish p ending).1 (k.finish p ending).2 where
  ground := rfl
  nextSession_le := le_rfl
  session := nofun
  settled := fun _ => iff_of_true rfl rfl
  registry := by
    intro S hS hkeeps
    unfold Connection.finish
    dsimp only
    rcases hid : k.stage.sessionId? with _ | id
    · refine hkeeps.congr fun other => or_congr_right ?_
      refine iff_of_false (fun hworks => ?_) nofun
      rw [Stage.sessionId?_of_workingId? hworks] at hid
      cases hid
    · refine (hkeeps.leave id).congr fun other => ?_
      constructor
      · rintro ⟨hother | hworks, hne⟩
        · exact .inl hother
        · have hsame := (Stage.sessionId?_of_workingId? hworks).symm.trans hid
          exact absurd (Option.some.inj hsame) hne
      · rintro (hother | hnone)
        · refine ⟨.inl hother, fun heq => (hS other hother).2 ?_⟩
          rw [hid, heq]
        · cases hnone

theorem dispatched {id : Id} {method : String} {params : Json} {reaction : Reaction} {stage : Stage}
    (h : p.Dispatched k.ip k.stage id method params (reaction, stage, q)) : p.Turn k { k with stage } q := by
  have hground := h.proceeds.ground
  cases h with
  | answered => exact of_stage rfl rfl (fun _ hkeeps => hkeeps) rfl rfl
  | exhausted => exact of_stage hground rfl (fun _ hkeeps => hkeeps) rfl rfl
  | subscribed _ _ hstage =>
    refine ⟨hground, Nat.le_succ _, ?_, fun hk => hk.of_ne (by rw [hstage]; nofun) nofun, ?_⟩
    · intro id hid
      cases hid
      exact .inr ⟨le_rfl, Nat.lt_succ_self _⟩
    · intro S _ hkeeps
      rw [hstage] at hkeeps
      exact hkeeps
  | @authorized _ subscription _ _ _ hstage =>
    refine ⟨hground, le_rfl, ?_, fun hk => hk.of_ne (by rw [hstage]; nofun) nofun, ?_⟩
    · intro id hid
      rw [hstage]
      exact .inl hid
    · intro S _ hkeeps
      rw [hstage] at hkeeps
      refine (hkeeps.insert subscription.id mailboxCapacity).congr fun other => ?_
      simp [Stage.workingId?, eq_comm]
  | submitted _ h =>
    have hkept : q.registry = p.registry ∧ q.nextSession = p.nextSession := by
      cases h with
      | turnedAway => exact ⟨rfl, rfl⟩
      | duplicate => exact ⟨rfl, rfl⟩
      | refused => exact ⟨rfl, rfl⟩
      | counted _ _ _ _ _ hq => exact ⟨hq.registry, hq.nextSession⟩
    exact of_stage hground hkept.2 (fun S hkeeps => by rwa [hkept.1]) rfl rfl

end Turn

end Pool

/-- Whatever a connection does, others stay registered as they are. -/
theorem Connection.Goes.turn {σ : Type} {p q : Pool σ} {k k' : Connection} (h : k.Goes p k' q) : p.Turn k k' q := by
  induction h with
  | stayed hstage hended => exact .of_stage rfl rfl (fun _ hkeeps => hkeeps) hstage hended
  | banned => exact .of_stage rfl rfl (fun _ hkeeps => hkeeps) rfl rfl
  | received hreceive => exact .of_stage rfl rfl (fun _ hkeeps => hkeeps.receive hreceive) rfl rfl
  | dispatched h => exact .dispatched h
  | finished => exact .finish _ _ _
  | andThen _ _ ih ih' => exact ih.trans ih'

namespace Crowd

variable {σ : Type} {c c' : Crowd σ} {place other : Nat} {m : Member} {d : Dialogue σ} {id : SessionId}

/-! ### Steps -/

/-- The stage of the connection of a place. -/
def stageAt? (c : Crowd σ) (place : Nat) : Option Stage := c.members[place]?.map fun m => m.connection.stage

/-- The session that the connection of a place holds. -/
def sessionAt? (c : Crowd σ) (place : Nat) : Option SessionId := (c.stageAt? place).bind Stage.sessionId?

/-- The session that the connection of a place may work for. -/
def workingAt? (c : Crowd σ) (place : Nat) : Option SessionId := (c.stageAt? place).bind Stage.workingId?

theorem sessionAt?_of_workingAt? (h : c.workingAt? place = some id) : c.sessionAt? place = some id := by
  obtain ⟨stage, hstage, hid⟩ := Option.bind_eq_some_iff.1 h
  exact Option.bind_eq_some_iff.2 ⟨stage, hstage, Stage.sessionId?_of_workingId? hid⟩

theorem stageAt?_of_getElem? (hm : c.members[place]? = some m) : c.stageAt? place = some m.connection.stage := by
  rw [stageAt?, hm, Option.map_some]

theorem stageAt?_proceed (hm : c.members[place]? = some m) (d : Dialogue σ) :
    (c.proceed place d).stageAt? place = some d.connection.stage := by
  obtain ⟨hplace, -⟩ := List.getElem?_eq_some_iff.1 hm
  simp [stageAt?, proceed, hplace, Member.ofDialogue]

theorem stageAt?_proceed_of_ne (hne : other ≠ place) (d : Dialogue σ) :
    (c.proceed place d).stageAt? other = c.stageAt? other := by
  simp [stageAt?, proceed, List.getElem?_set_ne (Ne.symm hne)]

/-- Who comes holds no session yet. -/
private theorem bind_stageAt?_arrive {f : Stage → Option SessionId} (hf : f .connected = none) (ip : Ip)
    (deadline place : Nat) : ((c.arrive ip deadline).stageAt? place).bind f = (c.stageAt? place).bind f := by
  unfold arrive
  split
  · rcases Nat.lt_trichotomy place c.members.length with hlt | rfl | hgt
    · simp [stageAt?, List.getElem?_append_left hlt]
    · simp [stageAt?, Connection.ofIp, hf]
    · have hlong : (c.members ++ [Member.mk (Connection.ofIp ip deadline) none []]).length ≤ place := by
        rw [List.length_append]
        exact hgt
      simp [stageAt?, List.getElem?_eq_none hlong, List.getElem?_eq_none (Nat.le_of_lt hgt)]
  · rfl

/-- A connection that goes on is served at first, and afterwards unless it ended. -/
private theorem served_proceed (hm : c.members[place]? = some m) (hopen : m.connection.ended = none)
    (d : Dialogue σ) : 0 < c.served ∧
      (c.proceed place d).served = if d.connection.ended.isSome then c.served - 1 else c.served := by
  obtain ⟨hplace, hget⟩ := List.getElem?_eq_some_iff.1 hm
  have hserved : m.connection.ended.isNone = true := by rw [hopen, Option.isNone_none]
  have hpos : 0 < c.served := List.countP_pos_iff.2 ⟨m, List.mem_of_getElem? hm, hserved⟩
  refine ⟨hpos, ?_⟩
  have hset := List.countP_set (p := fun m : Member => m.connection.ended.isNone) (a := .ofDialogue d) hplace
  rw [hget, if_pos hserved] at hset
  change (c.proceed place d).served = c.served - 1 + _ at hset
  rw [hset]
  rcases hended : d.connection.ended with _ | ending
  · simp only [Member.ofDialogue, hended, Option.isNone_none, if_true, Option.isSome_none, Bool.false_eq_true,
      if_false]
    omega
  · simp [Member.ofDialogue, hended]

/-- A miner comes, one connection goes on, or the pool changes elsewhere. -/
inductive Moves (c : Crowd σ) : Crowd σ → Prop
  | arrived (ip : Ip) (deadline : Nat) : Moves c (c.arrive ip deadline)
  | proceeded {place : Nat} {m : Member} {d : Dialogue σ} (hm : c.members[place]? = some m)
      (hopen : m.connection.ended = none) (hturn : c.pool.Turn m.connection d.connection d.pool) :
      Moves c (c.proceed place d)
  | elsewhere {q : Pool σ} (hground : q.ground = c.pool.ground) (hnext : q.nextSession = c.pool.nextSession)
      (hregistry : ∀ S, c.pool.registry.Keeps S → q.registry.Keeps S) : Moves c { c with pool := q }

theorem Stepped.moves [Store σ] {e : Event} (h : c.Stepped e c') : c.Moves c' := by
  cases h with
  | arrived => exact .arrived _ _
  | acted hm hopen hstep => exact .proceeded hm hopen (Action.goes hstep).turn
  | @limited place room m hm hopen =>
    have hturn : c.pool.Turn m.connection { m.connection with room } c.pool :=
      .of_stage rfl rfl (fun _ hkeeps => hkeeps) rfl rfl
    have hmoves := Moves.proceeded (d := ⟨c.pool, { m.connection with room }, m.reply, m.looked⟩) hm hopen hturn
    simpa [proceed, Member.ofDialogue, hopen] using hmoves
  | @published clean =>
    have hrefreshed := c.pool.refresh_refreshed clean
    have hground := hrefreshed.proceeds.ground
    have hnext : (c.pool.refresh clean).2.nextSession = c.pool.nextSession := by
      generalize c.pool.refresh clean = result at hrefreshed
      cases hrefreshed with
      | unfetched hq => exact hq.nextSession
      | unbuilt hq =>
        have hsame := hq.nextSession
        exact hsame
      | published hq =>
        have hsame := hq.nextSession
        exact hsame
    exact .elsewhere hground hnext fun _ hkeeps => hkeeps
  | told => exact .elsewhere rfl rfl fun _ hkeeps => hkeeps.post _ _
  | flushed => exact .elsewhere rfl rfl fun _ hkeeps => hkeeps
  | outward hq => exact .elsewhere hq.ground hq.nextSession fun _ hkeeps => by rwa [hq.registry]

theorem Moves.ground (h : c.Moves c') : c'.pool.ground = c.pool.ground := by
  cases h with
  | arrived =>
    unfold arrive
    split <;> rfl
  | proceeded _ _ hturn => exact hturn.ground
  | elsewhere hground => exact hground

/-- Only one connection can come to a session, and it is a new one. -/
theorem Moves.sessions (h : c.Moves c') : c.pool.nextSession ≤ c'.pool.nextSession ∧
    ∃ place, ∀ other id, c'.sessionAt? other = some id → c.sessionAt? other = some id ∨
      other = place ∧ c.pool.nextSession ≤ id ∧ id < c'.pool.nextSession := by
  cases h with
  | arrived ip deadline =>
    refine ⟨?_, 0, fun other id hid => .inl ?_⟩
    · unfold arrive
      split <;> exact Nat.le_refl _
    · rwa [sessionAt?, bind_stageAt?_arrive rfl] at hid
  | @proceeded place m d hm hopen hturn =>
    refine ⟨hturn.nextSession_le, place, fun other id hid => ?_⟩
    by_cases heq : other = place
    · subst heq
      rw [sessionAt?, stageAt?_proceed hm] at hid
      rw [sessionAt?, stageAt?_of_getElem? hm]
      exact (hturn.session id hid).imp_right fun hnew => ⟨rfl, hnew⟩
    · rw [sessionAt?, stageAt?_proceed_of_ne heq] at hid
      exact .inl hid
  | elsewhere _ hnext => exact ⟨Nat.le_of_eq hnext.symm, 0, fun _ _ hid => .inl hid⟩

/-! ### Runs -/

/-- The connections that may work are registered and nobody else is, no two hold one session, and the counter is
the number of those that are being served. -/
structure IsAttended (c : Crowd σ) : Prop where
  registry : c.pool.registry.Keeps fun id => ∃ place, c.workingAt? place = some id
  apart : ∀ place other id, c.sessionAt? place = some id → c.sessionAt? other = some id → place = other
  known : ∀ place id, c.sessionAt? place = some id → id < c.pool.nextSession
  settled : ∀ m ∈ c.members, m.connection.IsSettled
  count : c.count = c.served
  served_le : c.served ≤ c.pool.settings.maxConnections

theorem isAttended_ofPool {p : Pool σ} (hfresh : p.IsFresh) : (ofPool p).IsAttended where
  registry := by
    have hempty : (ofPool p).pool.registry = .empty := hfresh.registry
    rw [hempty]
    refine Registry.keeps_empty.congr fun id => iff_of_false not_false ?_
    rintro ⟨_, hworks⟩
    cases hworks
  apart := fun _ _ _ hid => by cases hid
  known := fun _ _ hid => by cases hid
  settled := nofun
  count := rfl
  served_le := Nat.zero_le _

namespace IsAttended

/-- Who works is the connection of a place, or another. -/
private theorem exists_workingAt?_iff (c : Crowd σ) (place : Nat) (id : SessionId) :
    (∃ other, c.workingAt? other = some id) ↔
      (∃ other, other ≠ place ∧ c.workingAt? other = some id) ∨ c.workingAt? place = some id := by
  constructor
  · rintro ⟨other, hworks⟩
    by_cases heq : other = place
    · subst heq
      exact .inr hworks
    · exact .inl ⟨other, heq, hworks⟩
  · rintro (⟨other, -, hworks⟩ | hworks)
    · exact ⟨other, hworks⟩
    · exact ⟨place, hworks⟩

private theorem registry_of_moves (h : c.IsAttended) (hmoves : c.Moves c') :
    c'.pool.registry.Keeps fun id => ∃ place, c'.workingAt? place = some id := by
  cases hmoves with
  | arrived ip deadline =>
    have hpool : (c.arrive ip deadline).pool = c.pool := by
      unfold arrive
      split <;> rfl
    rw [hpool]
    refine h.registry.congr fun id => exists_congr fun place => ?_
    rw [workingAt?, workingAt?, bind_stageAt?_arrive rfl]
  | @proceeded place m d hm hopen hturn =>
    have hbefore : c.workingAt? place = m.connection.stage.workingId? := by
      rw [workingAt?, stageAt?_of_getElem? hm]
      rfl
    have hafter : (c.proceed place d).workingAt? place = d.connection.stage.workingId? := by
      rw [workingAt?, stageAt?_proceed hm]
      rfl
    -- the sessions that all others work for
    have hothers := hturn.registry (fun id => ∃ other, other ≠ place ∧ c.workingAt? other = some id) ?_ ?_
    · refine hothers.congr fun id => ?_
      rw [exists_workingAt?_iff _ place, hafter]
      refine or_congr_left (exists_congr fun other => and_congr_right fun hne => ?_)
      rw [workingAt?, workingAt?, stageAt?_proceed_of_ne hne]
    · rintro id ⟨other, hne, hworks⟩
      have hholds := sessionAt?_of_workingAt? hworks
      refine ⟨h.known other id hholds, fun hsame => hne (h.apart other place id hholds ?_)⟩
      rw [sessionAt?, stageAt?_of_getElem? hm]
      exact hsame
    · refine h.registry.congr fun id => ?_
      rw [exists_workingAt?_iff _ place, hbefore]
  | elsewhere _ _ hregistry => exact hregistry _ h.registry

private theorem settled_of_moves (h : c.IsAttended) (hmoves : c.Moves c') :
    ∀ m ∈ c'.members, m.connection.IsSettled := by
  cases hmoves with
  | arrived ip deadline =>
    unfold arrive
    split
    · intro m hm
      rcases List.mem_append.1 hm with hold | hnew
      · exact h.settled m hold
      · obtain rfl := List.mem_singleton.1 hnew
        exact iff_of_false nofun nofun
    · exact h.settled
  | proceeded hm hopen hturn =>
    intro other hother
    rcases List.mem_or_eq_of_mem_set hother with hold | rfl
    · exact h.settled other hold
    · exact hturn.settled (h.settled _ (List.mem_of_getElem? hm))
  | elsewhere => exact h.settled

private theorem count_of_moves (h : c.IsAttended) (hmoves : c.Moves c') :
    c'.count = c'.served ∧ c'.served ≤ c.pool.settings.maxConnections := by
  have hcount := h.count
  have hle := h.served_le
  cases hmoves with
  | arrived ip deadline =>
    unfold arrive
    split
    · next hroom =>
      have hserved : served { c with
          members := c.members ++ [⟨Connection.ofIp ip deadline, none, []⟩]
          count := c.count + 1 } = c.served + 1 := by
        simp [served, Connection.ofIp]
      rw [hserved]
      exact ⟨congrArg (· + 1) hcount, by omega⟩
    · exact ⟨hcount, hle⟩
  | proceeded hm hopen hturn =>
    rw [(served_proceed hm hopen _).2, proceed, hcount]
    refine ⟨rfl, ?_⟩
    split <;> omega
  | elsewhere => exact ⟨hcount, hle⟩

theorem of_moves (h : c.IsAttended) (hmoves : c.Moves c') : c'.IsAttended := by
  obtain ⟨hle, place, hsessions⟩ := hmoves.sessions
  have hcount := h.count_of_moves hmoves
  refine ⟨h.registry_of_moves hmoves, ?_, ?_, h.settled_of_moves hmoves, hcount.1, ?_⟩
  · intro i j id hi hj
    rcases hsessions i id hi with hi | ⟨rfl, hi, -⟩
    · rcases hsessions j id hj with hj | ⟨rfl, hj, -⟩
      · exact h.apart i j id hi hj
      · exact absurd (h.known i id hi) (Nat.not_lt_of_le hj)
    · rcases hsessions j id hj with hj | ⟨rfl, -, -⟩
      · exact absurd (h.known j id hj) (Nat.not_lt_of_le hi)
      · rfl
  · intro i id hi
    rcases hsessions i id hi with hi | ⟨-, -, hlt⟩
    · exact Nat.lt_of_lt_of_le (h.known i id hi) hle
    · exact hlt
  · have hsettings : c'.pool.settings = c.pool.settings := congrArg Ground.settings hmoves.ground
    rw [hsettings]
    exact hcount.2

end IsAttended

/-! ### Who is registered and how many are served -/

namespace IsAttended

private theorem contains_iff (h : c.IsAttended) :
    c.pool.registry.contains id = true ↔ ∃ place, c.workingAt? place = some id := by
  rw [Registry.contains, List.contains_iff_mem]
  exact (h.registry id).1

/-- The session of a connection is registered exactly if the connection may work. -/
theorem contains_iff_authorized (h : c.IsAttended) (hm : c.members[place]? = some m)
    (hid : m.connection.stage.sessionId? = some id) :
    c.pool.registry.contains id = true ↔ ∃ session, m.connection.stage = .authorized session := by
  have hholds : c.sessionAt? place = some id := by
    rw [sessionAt?, stageAt?_of_getElem? hm]
    exact hid
  rw [h.contains_iff]
  constructor
  · rintro ⟨other, hworks⟩
    obtain rfl := h.apart other place id (sessionAt?_of_workingAt? hworks) hholds
    rw [workingAt?, stageAt?_of_getElem? hm] at hworks
    rcases hstage : m.connection.stage with _ | _ | session | _
    all_goals
      rw [hstage] at hworks
      cases hworks
    exact ⟨session, rfl⟩
  · rintro ⟨session, hstage⟩
    refine ⟨place, ?_⟩
    rw [workingAt?, stageAt?_of_getElem? hm]
    rw [hstage] at hid ⊢
    exact hid

/-- Every session that is registered is that of an open connection that may work. -/
theorem exists_authorized_of_contains (h : c.IsAttended) (hregistered : c.pool.registry.contains id = true) :
    ∃ (place : Nat) (m : Member) (session : Session), c.members[place]? = some m ∧ m.connection.ended = none ∧
      m.connection.stage = .authorized session ∧ session.id = id := by
  obtain ⟨place, hworks⟩ := h.contains_iff.1 hregistered
  obtain ⟨stage, hstage, hid⟩ := Option.bind_eq_some_iff.1 hworks
  obtain ⟨m, hm, rfl⟩ := Option.map_eq_some_iff.1 hstage
  rcases hauthorized : m.connection.stage with _ | _ | session | _
  all_goals
    rw [hauthorized] at hid
    cases hid
  have hsettled := h.settled m (List.mem_of_getElem? hm)
  rw [Connection.IsSettled, hauthorized] at hsettled
  have hopen : m.connection.ended = none := Option.not_isSome_iff_eq_none.1 fun hended => nomatch hsettled.1 hended
  exact ⟨place, m, session, hm, hopen, hauthorized, rfl⟩

theorem count_pos (h : c.IsAttended) (hm : m ∈ c.members) (hopen : m.connection.ended = none) : 0 < c.count := by
  rw [h.count]
  exact List.countP_pos_iff.2 ⟨m, hm, by rw [hopen, Option.isNone_none]⟩

/-- A miner that comes is dropped exactly when the pool serves as many as it may. -/
theorem arrive_eq_self_iff (h : c.IsAttended) (ip : Ip) (deadline : Nat) :
    c.arrive ip deadline = c ↔ c.served = c.pool.settings.maxConnections := by
  have hcount := h.count
  have hle := h.served_le
  unfold arrive
  split
  · refine iff_of_false (fun heq => ?_) (by omega)
    have hlength := congrArg (fun c : Crowd σ => c.members.length) heq
    simp at hlength
  · exact iff_of_true rfl (by omega)

/-- A service that serves the same connections lets in whom the counter lets in. -/
theorem accept_iff (h : c.IsAttended) {s : Service σ} (hsettings : s.pool.settings = c.pool.settings)
    (hconnections : s.connections.map (·.2) = c.members.map (·.connection)) (name : String) (ip : Ip)
    (deadline : Nat) :
    (s.accept name ip).1 = true ↔ c.arrive ip deadline ≠ c := by
  have hle := h.served_le
  have hserved : s.served = c.served := by
    have hcounts := congrArg (List.countP fun k => k.ended.isNone) hconnections
    rwa [List.countP_map, List.countP_map] at hcounts
  rw [ne_eq, h.arrive_eq_self_iff, Service.accept, hserved, hsettings]
  split
  · exact iff_of_true rfl (by omega)
  · exact iff_of_false nofun (by omega)

variable [Store σ] {es : List Event} {m' : Member}

/-- A session that a connection held is held by no other one later. -/
private theorem eq_of_sessionAt?_run (h : c.IsAttended) (hid : c.sessionAt? place = some id)
    (hrun : c.run? es = some c') (hlater : c'.sessionAt? other = some id) : other = place := by
  have howned : id < c'.pool.nextSession ∧ ∀ other, c'.sessionAt? other = some id → other = place := by
    refine run?_induction
      (P := fun c => id < c.pool.nextSession ∧ ∀ other, c.sessionAt? other = some id → other = place)
      ⟨h.known place id hid, fun other hother => h.apart other place id hother hid⟩ ?_ hrun
    rintro c e c' ⟨hlt, howned⟩ hstep
    obtain ⟨hle, _, hsessions⟩ := hstep.moves.sessions
    refine ⟨Nat.lt_of_lt_of_le hlt hle, fun other hother => ?_⟩
    rcases hsessions other id hother with hold | ⟨-, hnew, -⟩
    · exact howned other hold
    · exact absurd hlt (Nat.not_lt_of_le hnew)
  exact howned.2 other hlater

/-- Once a connection has ended, the session that it held is not registered and has no mailbox. -/
theorem not_contains_of_ended (h : c.IsAttended) (hm : c.members[place]? = some m)
    (hid : m.connection.stage.sessionId? = some id) (hrun : c.run? es = some c') (h' : c'.IsAttended)
    (hm' : c'.members[place]? = some m') (hended : m'.connection.ended ≠ none) :
    c'.pool.registry.contains id = false ∧ c'.pool.registry.mailbox? id = none := by
  have hheld : c.sessionAt? place = some id := by
    rw [sessionAt?, stageAt?_of_getElem? hm]
    exact hid
  have hgone : m'.connection.stage = .disconnected :=
    (h'.settled m' (List.mem_of_getElem? hm')).1 (Option.isSome_iff_ne_none.2 hended)
  have hnobody : ¬ ∃ other, c'.workingAt? other = some id := by
    rintro ⟨other, hworks⟩
    obtain rfl := h.eq_of_sessionAt?_run hheld hrun (sessionAt?_of_workingAt? hworks)
    rw [workingAt?, stageAt?_of_getElem? hm', hgone] at hworks
    cases hworks
  constructor
  · rw [← Bool.not_eq_true, h'.contains_iff]
    exact hnobody
  · rw [← Option.not_isSome_iff_eq_none, (h'.registry id).2]
    exact hnobody

end IsAttended

variable [Store σ] {es : List Event}

theorem ground_run? (h : c.run? es = some c') : c'.pool.ground = c.pool.ground :=
  run?_induction (P := fun c' => c'.pool.ground = c.pool.ground) rfl
    (fun _ _ _ hc hstep => hstep.moves.ground.trans hc) h

theorem isAttended_run {p : Pool σ} (hfresh : p.IsFresh) (h : (ofPool p).run? es = some c) : c.IsAttended :=
  run?_induction (isAttended_ofPool hfresh) (fun _ _ _ hc hstep => hc.of_moves hstep.moves) h

/-- Whatever happens to the connections of a pool in whatever order and however they end: the session of an open
connection is registered exactly if the connection may work, that of one that ended is not, and nobody else is
registered; and as many are counted as are being served, which are never more than there may be, and another is
dropped exactly when they are that many. -/
theorem nothing_outlives_connections {p : Pool σ} (hfresh : p.IsFresh) {front back : List Event} {mid c : Crowd σ}
    (hfront : (ofPool p).run? front = some mid) (hback : mid.run? back = some c) :
    (∀ (place : Nat) (m : Member) id, c.members[place]? = some m → m.connection.ended = none →
      m.connection.stage.sessionId? = some id →
      (c.pool.registry.contains id = true ↔ ∃ session, m.connection.stage = .authorized session)) ∧
    (∀ (place : Nat) (m m' : Member) id, mid.members[place]? = some m → m.connection.stage.sessionId? = some id →
      c.members[place]? = some m' → m'.connection.ended ≠ none →
      c.pool.registry.contains id = false ∧ c.pool.registry.mailbox? id = none) ∧
    (∀ id, c.pool.registry.contains id = true → ∃ (place : Nat) (m : Member) (session : Session),
      c.members[place]? = some m ∧ m.connection.ended = none ∧ m.connection.stage = .authorized session ∧
      session.id = id) ∧
    c.count = c.served ∧ c.count ≤ p.settings.maxConnections ∧
    (∀ m ∈ c.members, m.connection.ended = none → 0 < c.count) ∧
    ∀ ip deadline, (c.arrive ip deadline = c ↔ c.served = p.settings.maxConnections) := by
  have hmid := isAttended_run hfresh hfront
  have hrun : (ofPool p).run? (front ++ back) = some c := by
    rw [run?_append, hfront]
    exact hback
  have hc := isAttended_run hfresh hrun
  have hsettings : c.pool.settings = p.settings := congrArg Ground.settings (ground_run? hrun)
  have hle := hc.served_le
  rw [hsettings] at hle
  refine ⟨fun place m id hm _ hid => hc.contains_iff_authorized hm hid, ?_,
    fun id hregistered => hc.exists_authorized_of_contains hregistered, hc.count, hc.count ▸ hle,
    fun m hm hopen => hc.count_pos hm hopen, fun ip deadline => ?_⟩
  · intro place m m' id hm hid hm' hended
    exact hmid.not_contains_of_ended hm hid hback hc hm' hended
  · rw [hc.arrive_eq_self_iff, hsettings]

/-- A miner comes, subscribes and authorizes, and is answered in full. -/
def sampleVisit : List Event :=
  [.arrive (.four [10, 0, 0, 1]) 600,
    .act 0 (.line 0 "\x7b\"id\":\"a\",\"method\":\"mining.subscribe\",\"params\":[]\x7d"),
    .act 0 .reply, .act 0 .reply,
    .act 0 (.line 0 ("\x7b\"id\":\"b\",\"method\":\"mining.authorize\"," ++
      "\"params\":[\"D1111111111111111111111111111.rig\"]\x7d")),
    .act 0 .reply, .act 0 .reply, .act 0 .reply, .act 0 .reply]

theorem exists_sampleVisit : ∃ (mid : Crowd Ledger) (m : Member), (ofPool samplePool).run? sampleVisit = some mid ∧
    mid.members[0]? = some m ∧ m.connection.stage = .authorized sampleSession ∧ m.connection.ended = none ∧
    m.connection.room = none ∧ m.reply = none ∧ mid.pool.jobs.nextId = ⟨0⟩ ∧ mid.pool.shares.waiting = [] := by
  have hvisit : ((ofPool samplePool).run? sampleVisit).bind (fun c => c.members[0]?.map fun m =>
      ((m.connection.stage, m.connection.ended, m.connection.room, m.reply.isNone),
        c.pool.jobs.nextId, c.pool.shares.waiting.isEmpty)) =
      some ((.authorized sampleSession, none, none, true), ⟨0⟩, true) := by
    decide +kernel
  obtain ⟨mid, hmid, hstate⟩ := Option.bind_eq_some_iff.1 hvisit
  obtain ⟨m, hm, hstate⟩ := Option.map_eq_some_iff.1 hstate
  obtain ⟨⟨hstage, hended, hroom, hreply⟩, hid, hwaiting⟩ := by simpa only [Prod.mk.injEq] using hstate
  exact ⟨mid, m, hmid, hm, hstage, hended, hroom, Option.isNone_iff_eq_none.1 hreply, hid,
    List.isEmpty_iff.1 hwaiting⟩

/-- The miner of the sample leaves again. -/
theorem nothing_outlives_connections_sample : ∃ (mid c : Crowd Ledger) (m m' : Member), samplePool.IsFresh ∧
    (ofPool samplePool).run? sampleVisit = some mid ∧ mid.run? [.act 0 .close] = some c ∧
    mid.members[0]? = some m ∧ m.connection.stage.sessionId? = some 0 ∧ mid.pool.registry.contains 0 = true ∧
    c.members[0]? = some m' ∧ m'.connection.ended ≠ none ∧ c.pool.registry.contains 0 = false ∧ c.count = 0 := by
  obtain ⟨mid, m, hmid, hm, hstage, hopen, -⟩ := exists_sampleVisit
  have hleft : ((ofPool samplePool).run? (sampleVisit ++ [.act 0 .close])).map (fun c =>
      (c.members[0]?.map fun m => m.connection.ended, c.count)) = some (some (some .inOrder), 0) := by
    decide +kernel
  rw [run?_append, hmid, Option.bind_some] at hleft
  obtain ⟨c, hc, hstate⟩ := Option.map_eq_some_iff.1 hleft
  obtain ⟨hm', hzero⟩ := Prod.mk.inj hstate
  obtain ⟨m', hm', hended⟩ := Option.map_eq_some_iff.1 hm'
  have hid : m.connection.stage.sessionId? = some 0 := by rw [hstage]; rfl
  have hne : m'.connection.ended ≠ none := by rw [hended]; nofun
  have hstays : mid.run? [] = some mid := rfl
  obtain ⟨hregistered, -⟩ := nothing_outlives_connections samplePool_isFresh hmid hstays
  obtain ⟨-, hgone, -⟩ := nothing_outlives_connections samplePool_isFresh hmid hc
  exact ⟨mid, c, m, m', samplePool_isFresh, hmid, hc, hm, hid, (hregistered 0 m 0 hm hopen hid).2 ⟨_, hstage⟩,
    hm', hne, (hgone 0 m m' 0 hm hid hm' hne).1, hzero⟩

end Crowd

end MergedMining
