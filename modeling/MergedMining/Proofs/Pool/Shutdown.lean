import MergedMining.Proofs.Pool.Attendance

/-!
# Shares at a shutdown

When a pool is stopped, the task that stores shares flushes them a last time and ends, and the pool waits for it
but not for its connections, which may still handle what they took.  `Shutdown` is a pool that serves its miners
until it has returned, with that task moved in single steps, and a store that takes every batch.  What the store
was passed is at the end what was counted before the last flush (`passed_eq_handed`); a share that is counted
later is never stored, although its miner is told that it was accepted (`not_passed_of_accepted`).
-/

namespace MergedMining

open Stratum (Id Message)

/-! ### Counted shares -/

namespace Pool

variable {σ : Type} {p q : Pool σ}

/-- Some shares were counted, and nothing else happened to those that wait and those that are being stored. -/
def Gains (p q : Pool σ) (shares : List Share) : Prop :=
  q.shares = { p.shares with waiting := p.shares.waiting ++ shares }

theorem Gains.of_eq (h : q.shares = p.shares) : p.Gains q [] := by
  rw [Gains, List.append_nil]
  exact h

theorem Gains.trans {r : Pool σ} {shares later : List Share} (h : p.Gains q shares) (h' : q.Gains r later) :
    p.Gains r (shares ++ later) := by
  rw [Gains, ← List.append_assoc]
  rw [Gains, h] at h'
  exact h'

theorem Dispatched.exists_gains {ip : Ip} {stage stage' : Stage} {id : Id} {method : String} {params : Json}
    {reaction : Reaction} (h : p.Dispatched ip stage id method params (reaction, stage', q)) :
    ∃ shares, p.Gains q shares := by
  cases h with
  | answered => exact ⟨[], .of_eq rfl⟩
  | exhausted => exact ⟨[], .of_eq rfl⟩
  | subscribed => exact ⟨[], .of_eq rfl⟩
  | authorized => exact ⟨[], .of_eq rfl⟩
  | submitted _ h =>
    cases h with
    | turnedAway => exact ⟨[], .of_eq rfl⟩
    | duplicate => exact ⟨[], .of_eq rfl⟩
    | refused => exact ⟨[], .of_eq rfl⟩
    | counted _ _ _ _ _ hq => exact ⟨[_], hq.shares⟩

theorem shares_refresh (p : Pool σ) (clean : Bool) : (p.refresh clean).2.shares = p.shares := by
  have hrefreshed := p.refresh_refreshed clean
  generalize p.refresh clean = result at hrefreshed
  cases hrefreshed with
  | unfetched hq => exact hq.shares
  | unbuilt hq =>
    have hsame := hq.shares
    exact hsame
  | published hq =>
    have hsame := hq.shares
    exact hsame

end Pool

theorem Connection.Goes.exists_gains {σ : Type} {p q : Pool σ} {k k' : Connection} (h : k.Goes p k' q) :
    ∃ shares, p.Gains q shares := by
  induction h with
  | stayed => exact ⟨[], .of_eq rfl⟩
  | banned => exact ⟨[], .of_eq rfl⟩
  | received => exact ⟨[], .of_eq rfl⟩
  | dispatched h => exact h.exists_gains
  | finished => exact ⟨[], .of_eq rfl⟩
  | andThen _ _ ih ih' =>
    obtain ⟨shares, hgains⟩ := ih
    obtain ⟨later, hlater⟩ := ih'
    exact ⟨shares ++ later, hgains.trans hlater⟩

/-- Unless the shares are flushed, none of them leaves the buffer. -/
theorem Crowd.Stepped.exists_gains {σ : Type} [Store σ] {c c' : Crowd σ} {e : Crowd.Event} (h : c.Stepped e c')
    (hflush : e ≠ .flush) : ∃ shares, c.pool.Gains c'.pool shares := by
  cases h with
  | arrived =>
    unfold arrive
    split <;> exact ⟨[], .of_eq rfl⟩
  | acted _ _ hstep => exact (Action.goes hstep).exists_gains
  | limited => exact ⟨[], .of_eq rfl⟩
  | published => exact ⟨[], .of_eq (c.pool.shares_refresh _)⟩
  | told => exact ⟨[], .of_eq rfl⟩
  | flushed => exact absurd rfl hflush
  | outward hq => exact ⟨[], .of_eq hq.shares⟩

/-! ### Steps -/

/-- What the task that stores shares is about: it waits, the store was passed a batch, for the last time or not,
or the task has ended. -/
inductive Storing
  | idle
  | asking (last : Bool)
  | ended
  deriving DecidableEq

/-- What comes after a flush. -/
def Storing.after (last : Bool) : Storing := if last then .ended else .idle

/-- A pool that serves its miners, until it was stopped and has returned; `handed` are the shares that were
counted, and `passed` those that the store was passed, in order. -/
structure Shutdown (σ : Type) where
  crowd : Crowd σ
  cancelled : Bool
  storing : Storing
  handed : List Share
  passed : List Share
  returned : Bool

namespace Shutdown

variable {σ : Type}

/-- A pool that nobody was let in to and that is not being stopped. -/
def ofPool (p : Pool σ) : Shutdown σ := ⟨.ofPool p, false, .idle, [], [], false⟩

/-- The shares that wait to be stored. -/
def waiting (s : Shutdown σ) : List Share := s.crowd.pool.shares.waiting

/-- The buffer became another, and the store may have. -/
def withBuffer (s : Shutdown σ) (shares : ShareBuffer) (store : σ) : Shutdown σ :=
  { s with crowd := { s.crowd with pool := { s.crowd.pool with shares, store } } }

/-- What can come next.  Miners are served; the pool is stopped; the waiting shares are taken, for the last time
or not; the store has taken them; the pool returns. -/
inductive Event
  | serve (e : Crowd.Event)
  | cancel
  | flush (last : Bool)
  | stored
  | finish

/-- The waiting shares are taken and passed to the store, if there are any. -/
def flush (s : Shutdown σ) (last : Bool) : Shutdown σ :=
  if s.waiting.isEmpty then { s with storing := .after last }
  else
    { s.withBuffer s.crowd.pool.shares.take s.crowd.pool.store with
      passed := s.passed ++ s.waiting
      storing := .asking last }

/-- What comes of an event before the pool has returned.  Only a pool that was stopped flushes for the last
time, and it returns when that flush has ended, whatever its connections are about. -/
def next? [Store σ] (s : Shutdown σ) : Event → Option (Shutdown σ)
  | .serve .flush => none
  | .serve e => (s.crowd.step? e).map fun crowd =>
    { s with crowd, handed := s.handed ++ crowd.pool.shares.waiting.drop s.waiting.length }
  | .cancel => some { s with cancelled := true }
  | .flush last => if s.storing = .idle ∧ (last = true → s.cancelled = true) then some (s.flush last) else none
  | .stored =>
    match s.storing, s.crowd.pool.shares.inFlight with
    | .asking last, some batch =>
      match Store.insertShares s.crowd.pool.store batch with
      | (.ok (), store) =>
        some { s.withBuffer (s.crowd.pool.shares.settle true) store with storing := .after last }
      | (.error _, _) => none
    | _, _ => none
  | .finish => if s.cancelled = true ∧ s.storing = .ended then some { s with returned := true } else none

/-- What comes of an event, if it can come next. -/
def step? [Store σ] (s : Shutdown σ) (e : Event) : Option (Shutdown σ) := if s.returned then none else s.next? e

/-- What comes of events in turn, if they can come in this order. -/
def run? [Store σ] (s : Shutdown σ) (es : List Event) : Option (Shutdown σ) := es.foldlM step? s

/-- The outcomes of an event that can come next. -/
inductive Stepped [Store σ] (s : Shutdown σ) : Event → Shutdown σ → Prop
  | served {e : Crowd.Event} {crowd : Crowd σ} {shares : List Share} (hstep : s.crowd.Stepped e crowd)
      (hgains : s.crowd.pool.Gains crowd.pool shares) :
      Stepped s (.serve e) { s with crowd, handed := s.handed ++ shares }
  | cancelled : Stepped s .cancel { s with cancelled := true }
  | flushed {last : Bool} (hidle : s.storing = .idle) (hlast : last = true → s.cancelled = true) :
      Stepped s (.flush last) (s.flush last)
  | stored {last : Bool} {batch : List Share} {store : σ} (hasking : s.storing = .asking last)
      (hbatch : s.crowd.pool.shares.inFlight = some batch) :
      Stepped s .stored { s.withBuffer ⟨s.waiting, none⟩ store with storing := .after last }
  | finished (hcancelled : s.cancelled = true) (hended : s.storing = .ended) :
      Stepped s .finish { s with returned := true }

variable [Store σ] {s s' : Shutdown σ} {e : Event} {es : List Event}

private theorem next?_serve {e : Crowd.Event} (hflush : e ≠ .flush) {crowd : Crowd σ}
    (hstep : s.crowd.step? e = some crowd) {shares : List Share} (hgains : s.crowd.pool.Gains crowd.pool shares) :
    s.next? (.serve e) = some { s with crowd, handed := s.handed ++ shares } := by
  have hdrop : crowd.pool.shares.waiting.drop s.waiting.length = shares := by
    rw [hgains]
    exact List.drop_left
  unfold next?
  cases e with
  | flush => exact absurd rfl hflush
  | _ => simp only [hstep, Option.map_some, hdrop]

theorem step?_eq_some : s.step? e = some s' ↔ s.returned = false ∧ s.next? e = some s' := by
  cases h : s.returned <;> simp [step?, h]

theorem stepped_of_step? (h : s.step? e = some s') : s.Stepped e s' := by
  obtain ⟨-, h⟩ := step?_eq_some.1 h
  cases e with
  | serve e =>
    by_cases hflush : e = .flush
    · subst hflush
      cases h
    rcases hstep : s.crowd.step? e with _ | crowd
    · cases e <;> simp [next?, hstep] at h
    · have hstepped := Crowd.stepped_of_step? hstep
      obtain ⟨shares, hgains⟩ := hstepped.exists_gains hflush
      rw [next?_serve hflush hstep hgains] at h
      cases h
      exact .served hstepped hgains
  | cancel =>
    cases h
    exact .cancelled
  | flush last =>
    simp only [next?] at h
    split at h
    · next hready =>
      cases h
      exact .flushed hready.1 hready.2
    · cases h
  | stored =>
    simp only [next?] at h
    split at h
    · next last batch hasking hbatch =>
      split at h
      · next store _ =>
        cases h
        have hsettled : s.crowd.pool.shares.settle true = ⟨s.waiting, none⟩ := by
          simp only [ShareBuffer.settle, hbatch, if_true]
          rfl
        rw [hsettled]
        exact .stored hasking hbatch
      · cases h
    · cases h
  | finish =>
    simp only [next?] at h
    split at h
    · next hready =>
      cases h
      exact .finished hready.1 hready.2
    · cases h

theorem run?_cons_eq_some : s.run? (e :: es) = some s' ↔ ∃ mid, s.step? e = some mid ∧ mid.run? es = some s' :=
  Outcome.foldlM_cons_eq_some

theorem run?_append (s : Shutdown σ) (es es' : List Event) : s.run? (es ++ es') = (s.run? es).bind (·.run? es') :=
  List.foldlM_append

/-- What holds at the start and is kept by every step holds after every run. -/
theorem run?_induction {P : Shutdown σ → Prop} (hstart : P s)
    (hstep : ∀ (s : Shutdown σ) (e : Event) (s' : Shutdown σ), P s → s.Stepped e s' → P s')
    (h : s.run? es = some s') :
    P s' :=
  Outcome.foldlM_induction hstart (fun s e s' hs h => hstep s e s' hs (stepped_of_step? h)) h

/-! ### What happens in one piece -/

/-- Serving miners is a row of steps. -/
theorem exists_run?_serve (hreturned : s.returned = false) {es : List Crowd.Event} (hflush : ∀ e ∈ es, e ≠ .flush)
    {crowd : Crowd σ} (h : s.crowd.run? es = some crowd) : ∃ shares, s.crowd.pool.Gains crowd.pool shares ∧
      s.run? (es.map .serve) = some { s with crowd, handed := s.handed ++ shares } := by
  induction es generalizing s with
  | nil =>
    cases h
    refine ⟨[], .of_eq rfl, ?_⟩
    rw [List.append_nil]
    rfl
  | cons e es ih =>
    obtain ⟨mid, hmid, hrun⟩ := Crowd.run?_cons_eq_some.1 h
    have he : e ≠ .flush := hflush e List.mem_cons_self
    obtain ⟨shares, hgains⟩ := (Crowd.stepped_of_step? hmid).exists_gains he
    obtain ⟨later, hlater, hrest⟩ := ih (s := { s with crowd := mid, handed := s.handed ++ shares }) hreturned
      (fun e he => hflush e (List.mem_cons_of_mem _ he)) hrun
    refine ⟨shares ++ later, hgains.trans hlater, ?_⟩
    rw [List.map_cons, run?_cons_eq_some]
    refine ⟨_, step?_eq_some.2 ⟨hreturned, next?_serve he hmid hgains⟩, ?_⟩
    rw [hrest, List.append_assoc]

/-- A flush that nothing comes between is a row of steps. -/
theorem exists_run?_flush (hreturned : s.returned = false) (hidle : s.storing = .idle)
    {count : Nat} (hok : (s.crowd.pool.shares.flush s.crowd.pool.store).1 = .ok count) :
    ∃ es crowd passed, s.crowd.step? .flush = some crowd ∧ s.run? es = some { s with crowd, passed } := by
  have hfirst : s.step? (.flush false) = some (s.flush false) := by
    refine step?_eq_some.2 ⟨hreturned, ?_⟩
    simp [next?, hidle]
  by_cases hwaiting : s.crowd.pool.shares.waiting = []
  · have hsame : s.flush false = s := by
      rw [Shutdown.flush, waiting, hwaiting, List.isEmpty_nil, if_pos rfl, Storing.after, ← hidle]
      rfl
    rw [hsame] at hfirst
    refine ⟨[.flush false], s.crowd, s.passed, ?_, run?_cons_eq_some.2 ⟨s, hfirst, rfl⟩⟩
    simp [Crowd.step?, ShareBuffer.flush, hwaiting]
  · rcases hinsert : Store.insertShares s.crowd.pool.store s.crowd.pool.shares.waiting with ⟨e | _, store⟩
    · simp [ShareBuffer.flush, hwaiting, hinsert] at hok
    have hflush : s.crowd.pool.shares.flush s.crowd.pool.store =
        (.ok s.crowd.pool.shares.waiting.length, ⟨[], none⟩, store) := by
      simp [ShareBuffer.flush, hwaiting, hinsert, ShareBuffer.take, ShareBuffer.settle]
    have hstored : (s.flush false).step? .stored = some { s with
        crowd := { s.crowd with pool := { s.crowd.pool with shares := ⟨[], none⟩, store } }
        passed := s.passed ++ s.waiting } := by
      simp [step?, next?, Shutdown.flush, waiting, hwaiting, withBuffer, hreturned, ShareBuffer.take, hinsert,
        ShareBuffer.settle, Storing.after, hidle]
    refine ⟨[.flush false, .stored], _, _, ?_, run?_cons_eq_some.2 ⟨_, hfirst, run?_cons_eq_some.2 ⟨_, hstored, rfl⟩⟩⟩
    simp [Crowd.step?, hflush]

/-! ### What the store is passed -/

/-- What was counted was passed to the store or waits. -/
def IsKept (s : Shutdown σ) : Prop := s.handed = s.passed ++ s.waiting

/-- The last flush has begun. -/
def IsLast (s : Shutdown σ) : Prop := s.storing = .asking true ∨ s.storing = .ended

omit [Store σ] in
private theorem IsKept.flush (h : s.IsKept) (last : Bool) :
    (s.flush last).IsKept ∧ (s.flush last).passed = s.handed := by
  unfold Shutdown.flush
  split
  · next hnone =>
    have hpassed : s.passed = s.handed := by rw [h, List.isEmpty_iff.1 hnone, List.append_nil]
    exact ⟨h, hpassed⟩
  · exact ⟨h.trans (List.append_nil _).symm, h.symm⟩

theorem Stepped.isKept (h : s.Stepped e s') (hs : s.IsKept) : s'.IsKept := by
  cases h with
  | @served _ crowd shares _ hgains =>
    have hwaiting : crowd.pool.shares.waiting = s.waiting ++ shares := congrArg ShareBuffer.waiting hgains
    show s.handed ++ shares = s.passed ++ crowd.pool.shares.waiting
    rw [hwaiting, hs, List.append_assoc]
  | cancelled => exact hs
  | flushed => exact (hs.flush _).1
  | stored => exact hs
  | finished => exact hs

/-- After the last flush nothing more is passed. -/
theorem Stepped.passed_of_isLast (h : s.Stepped e s') (hs : s.IsLast) : s'.IsLast ∧ s'.passed = s.passed := by
  cases h with
  | served => exact ⟨hs, rfl⟩
  | cancelled => exact ⟨hs, rfl⟩
  | flushed hidle =>
    rcases hs with hasking | hended
    · rw [hidle] at hasking
      cases hasking
    · rw [hidle] at hended
      cases hended
  | @stored last _ _ hasking =>
    rcases hs with hlast | hended
    · rw [hasking] at hlast
      cases hlast
      exact ⟨.inr rfl, rfl⟩
    · rw [hasking] at hended
      cases hended
  | finished => exact ⟨hs, rfl⟩

/-- Only a flush that is the last begins it. -/
theorem Stepped.isLast (h : s.Stepped e s') (hs : ¬ s.IsLast) (hs' : s'.IsLast) :
    e = .flush true ∧ s.cancelled = true ∧ s' = s.flush true := by
  cases h with
  | served => exact absurd hs' hs
  | cancelled => exact absurd hs' hs
  | @flushed last hidle hlast =>
    cases last with
    | true => exact ⟨rfl, hlast rfl, rfl⟩
    | false =>
      refine absurd hs' ?_
      unfold Shutdown.flush
      split
      · rintro (hasking | hended)
        · cases hasking
        · cases hended
      · rintro (hasking | hended)
        · cases hasking
        · cases hended
  | @stored last _ _ hasking =>
    cases last with
    | true => exact absurd (.inl hasking) hs
    | false =>
      rcases hs' with hasking | hended
      · cases hasking
      · cases hended
  | finished _ hended => exact absurd (.inr hended) hs

/-- A pool returns only when the last flush has ended. -/
theorem Stepped.isLast_of_returned (h : s.Stepped e s') (hs : s.returned = true → s.IsLast)
    (hreturned : s'.returned = true) : s'.IsLast := by
  have hearlier (hsame : s'.returned = s.returned) : s'.IsLast :=
    (h.passed_of_isLast (hs (hsame ▸ hreturned))).1
  cases h with
  | served => exact hearlier rfl
  | cancelled => exact hearlier rfl
  | flushed =>
    refine hearlier ?_
    unfold Shutdown.flush
    split <;> rfl
  | stored => exact hearlier rfl
  | finished _ hended => exact .inr hended

private theorem exists_flush_of_isLast (hkept : s.IsKept) (hs : ¬ s.IsLast) (h : s.run? es = some s')
    (hs' : s'.IsLast) :
    ∃ front back mid, es = front ++ .flush true :: back ∧ s.run? front = some mid ∧ mid.cancelled = true ∧
      s'.passed = mid.handed := by
  induction es generalizing s with
  | nil =>
    cases h
    exact absurd hs' hs
  | cons e es ih =>
    obtain ⟨next, hnext, hrun⟩ := run?_cons_eq_some.1 h
    have hstepped := stepped_of_step? hnext
    by_cases hlast : next.IsLast
    · obtain ⟨rfl, hcancelled, rfl⟩ := hstepped.isLast hs hlast
      have hpassed := run?_induction (P := fun s' => s'.IsLast ∧ s'.passed = s.handed)
        ⟨hlast, (hkept.flush true).2⟩ (fun _ _ _ hs hstep => ?_) hrun
      · exact ⟨[], es, s, rfl, rfl, hcancelled, hpassed.2⟩
      · obtain ⟨hlast, hsame⟩ := hstep.passed_of_isLast hs.1
        exact ⟨hlast, hsame.trans hs.2⟩
    · obtain ⟨front, back, mid, rfl, hfront, hrest⟩ := ih (hstepped.isKept hkept) hlast hrun
      exact ⟨e :: front, back, mid, rfl, run?_cons_eq_some.2 ⟨next, hnext, hfront⟩, hrest⟩

/-- Whatever comes between the steps of a shutdown, what was counted was passed to the store or waits, and when
the pool has returned exactly that was passed which was counted before the last flush. -/
theorem passed_eq_handed {p : Pool σ} (hfresh : p.IsFresh) (h : (ofPool p).run? es = some s) :
    s.handed = s.passed ++ s.waiting ∧ (s.returned = true → ∃ front back mid, es = front ++ .flush true :: back ∧
      (ofPool p).run? front = some mid ∧ mid.cancelled = true ∧ s.passed = mid.handed) := by
  have hkept : (ofPool p).IsKept := by
    have hwaiting : (ofPool p).waiting = [] := congrArg ShareBuffer.waiting hfresh.shares
    rw [IsKept, hwaiting]
    rfl
  have hidle : ¬ (ofPool p).IsLast := by
    rintro (hasking | hended)
    · cases hasking
    · cases hended
  obtain ⟨hs, hlast⟩ := run?_induction (P := fun s => s.IsKept ∧ (s.returned = true → s.IsLast))
    ⟨hkept, fun hreturned => nomatch hreturned⟩
    (fun _ _ _ hs hstep => ⟨hstep.isKept hs.1, hstep.isLast_of_returned hs.2⟩) h
  exact ⟨hs, fun hreturned => exists_flush_of_isLast hkept hidle h (hlast hreturned)⟩

/-! ### A share that comes late -/

/-- A submission is handled, and its answer is written. -/
private theorem run?_submit {d : Dialogue σ} (hidle : d.IsIdle) (hroom : d.connection.room = none) {text : String}
    {id : Id} {params : Json} (hrequest : Traffic.request? text = some (id, "mining.submit", params))
    {message : Message} {q : Pool σ}
    (hsubmit : d.pool.submit d.connection.ip d.connection.stage id params = (.answer message, q)) (now : Nat) :
    Crowd.Action.run? d [.line now text, .reply] = some ⟨q,
      { d.connection with sent := message :: d.connection.sent }, some ⟨[], false, true, now⟩, d.looked⟩ := by
  have hdispatch : d.pool.dispatch d.connection.ip d.connection.stage id "mining.submit" params =
      (.answer message, d.connection.stage, q) := by
    simp [Pool.dispatch, hsubmit]
  have hsame := d.connection.stage.not_joins_self
  have hask : d.ask now id "mining.submit" params =
      ⟨q, d.connection, some ⟨[message], false, true, now⟩, d.looked⟩ := by
    simp [Dialogue.ask, hdispatch, hsame, Reaction.answer]
  simp [Crowd.Action.run?, Crowd.Action.step?, Dialogue.step?, if_pos hidle, hrequest, hask, Dialogue.goOn,
    Dialogue.write, Connection.write, hroom]

/-- After a job was published the miner of the sample hands in work for it. -/
private theorem exists_sampleShare : ∃ (c c' : Crowd Ledger) (m : Member) (share : Share),
    (Crowd.ofPool samplePool).run? (Crowd.sampleVisit ++ [.publish true]) = some c ∧ c.pool.shares.waiting = [] ∧
    c.run? [.act 0 (.line 0 (sampleLine "00000000")), .act 0 .reply] = some c' ∧ c'.pool.shares.waiting = [share] ∧
    c'.members[0]? = some m ∧ .result (.text "c") (.bool true) ∈ m.connection.sent := by
  obtain ⟨work, notify, hwork⟩ := exists_sampleWork
  obtain ⟨block, hmade⟩ := Block.exists_sampleBlock (Work.template_eq (Work.build_eq_ok.1 hwork))
    ([7, 7, 7, 7] ++ [0, 0, 0, 0]) ⟨0⟩ ⟨0x6553f101⟩
  obtain ⟨header, hheader⟩ := Block.exists_header hmade
  obtain ⟨mid, m, hmid, hm, hstage, hopen, hroom, hreply, hid, hwaiting⟩ := Crowd.exists_sampleVisit
  -- the pool with its miner, before and after the job is published
  have hminer (pool : Pool Ledger) :
      Traffic.connection? ⟨pool, mid.members.map (·.connection)⟩ 0 = some m.connection := by
    simp [Traffic.connection?, hm, hopen]
  have hlogin : Traffic.IsSample ⟨mid.pool, mid.members.map (·.connection)⟩ :=
    ⟨Crowd.ground_run? hmid, _, hminer _, hstage, hroom⟩
  obtain ⟨hrefreshed, -, hjob, hnew⟩ := hlogin.refresh hwork
  obtain ⟨c, hc⟩ : ∃ c : Crowd Ledger, c = { mid with
      pool := { (mid.pool.refresh true).2 with registry := mid.pool.registry } } := ⟨_, rfl⟩
  have hpublished : Traffic.IsSample ⟨c.pool, mid.members.map (·.connection)⟩ :=
    ⟨hc ▸ hrefreshed.ground, _, hminer _, hstage, hroom⟩
  have hjob' : c.pool.jobs.get? ⟨0⟩ = some { work with jobId := ⟨0⟩ } := by
    rw [hc, ← hid]
    exact hjob
  have hnew' (key : Bytes) : (c.pool.jobs.isDuplicate key).1 = false := hc ▸ hnew key
  have hwaiting' : c.pool.shares.waiting = [] := by
    rw [hc, ← hwaiting]
    exact congrArg ShareBuffer.waiting (mid.pool.shares_refresh true)
  obtain ⟨k, params, hk, -, hrequest, hrebuilds⟩ := hpublished.rebuilds hmade hheader Traffic.reads_zero hjob'
  obtain rfl : k = m.connection := Option.some.inj (hk.symm.trans (hminer _))
  obtain ⟨_, _, _, _, -, -, -, -, hbuilt, -⟩ := Work.ofTemplate_eq_ok.1 (Work.build_eq_ok.1 hwork)
  obtain ⟨share, q, hsubmit, hshare, -⟩ := Pool.submit_of_rebuilds hrebuilds (hnew' _) (by rw [hbuilt]; rfl)
    (by rw [hbuilt]) m.connection.ip (.text "c")
  have hm' : c.members[0]? = some m := by rw [hc]; exact hm
  obtain ⟨c', hrun, hpool, hmembers⟩ := Crowd.exists_run?_act hm'
    (fun _ => hopen) (run?_submit (d := m.dialogue c.pool) ⟨hreply, hopen⟩ hroom hrequest hsubmit 0)
  refine ⟨c, c', ⟨{ m.connection with sent := .result (.text "c") (.bool true) :: m.connection.sent },
    some ⟨[], false, true, 0⟩, m.looked⟩, share, ?_, hwaiting', hrun, ?_, ?_, List.mem_cons_self⟩
  · rw [Crowd.run?_append, hmid, hc]
    rfl
  · rw [hpool, hshare, hwaiting']
    rfl
  · obtain ⟨hplace, -⟩ := List.getElem?_eq_some_iff.1 hm
    rw [hmembers, hc]
    exact List.getElem?_set_self hplace

/-- The miner of the sample hands in work after the last flush, is told that it was accepted, and then the pool
returns. -/
private theorem exists_lost_share : ∃ (es : List Event) (s : Shutdown Ledger) (share : Share) (m : Member),
    (ofPool samplePool).run? es = some s ∧ s.returned = true ∧ s.handed = [share] ∧ s.passed = [] ∧
    m ∈ s.crowd.members ∧ .result (.text "c") (.bool true) ∈ m.connection.sent := by
  obtain ⟨c, c', m, share, hstart, hnone, hlate, hwaiting, hm, hsent⟩ := exists_sampleShare
  obtain ⟨shares, hgains, hserved⟩ := exists_run?_serve (s := ofPool samplePool) rfl
    (by simp [Crowd.sampleVisit]) hstart
  obtain rfl : shares = [] := by
    rw [hgains] at hnone
    exact (List.append_eq_nil_iff.1 hnone).2
  have hstopped : run? { ofPool samplePool with crowd := c } [.cancel, .flush true] =
      some { ofPool samplePool with crowd := c, cancelled := true, storing := .ended } := by
    simp [run?, step?, next?, ofPool, Shutdown.flush, Shutdown.waiting, hnone, Storing.after]
  obtain ⟨later, hgains', hserved'⟩ := exists_run?_serve
    (s := { ofPool samplePool with crowd := c, cancelled := true, storing := .ended }) rfl (by simp) hlate
  obtain rfl : later = [share] := by
    have hboth : c'.pool.shares.waiting = c.pool.shares.waiting ++ later := congrArg ShareBuffer.waiting hgains'
    rw [hwaiting, hnone, List.nil_append] at hboth
    exact hboth.symm
  refine ⟨List.map Event.serve (Crowd.sampleVisit ++ [.publish true]) ++ ([.cancel, .flush true] ++
    (List.map Event.serve [.act 0 (.line 0 (sampleLine "00000000")), .act 0 .reply] ++ [.finish])),
    ⟨c', true, .ended, [share], [], true⟩, share, m, ?_, rfl, rfl, rfl, List.mem_of_getElem? hm, hsent⟩
  rw [run?_append, hserved, Option.bind_some, List.append_nil, run?_append, hstopped, Option.bind_some, run?_append,
    hserved', Option.bind_some]
  rfl

theorem passed_eq_handed_sample : ∃ (es front back : List Event) (s mid : Shutdown Ledger) (share : Share),
    samplePool.IsFresh ∧ (ofPool samplePool).run? es = some s ∧ s.returned = true ∧ s.handed = [share] ∧
    s.handed = s.passed ++ s.waiting ∧ es = front ++ .flush true :: back ∧ (ofPool samplePool).run? front = some mid ∧
    mid.cancelled = true ∧ s.passed = mid.handed := by
  obtain ⟨es, s, share, -, hrun, hreturned, hhanded, -⟩ := exists_lost_share
  obtain ⟨hkept, hpassed⟩ := passed_eq_handed samplePool_isFresh hrun
  obtain ⟨front, back, mid, hes, hfront, hcancelled, heq⟩ := hpassed hreturned
  exact ⟨es, front, back, s, mid, share, samplePool_isFresh, hrun, hreturned, hhanded, hkept, hes, hfront, hcancelled,
    heq⟩

/-- A share may be lost although its miner was told that it was accepted, and the store took everything that it was
passed. -/
theorem not_passed_of_accepted :
    ¬ ∀ (σ : Type) [Store σ] (p : Pool σ) (es : List Event) (s : Shutdown σ) (share : Share)
    (m : Member), p.IsFresh → (ofPool p).run? es = some s → s.returned = true → s.handed = [share] →
    m ∈ s.crowd.members → .result (.text "c") (.bool true) ∈ m.connection.sent → share ∈ s.passed := by
  intro hpasses
  obtain ⟨es, s, share, m, hrun, hreturned, hhanded, hnone, hm, hsent⟩ := exists_lost_share
  have hpassed := hpasses Ledger samplePool es s share m samplePool_isFresh hrun hreturned hhanded hm hsent
  rw [hnone] at hpassed
  cases hpassed

end Shutdown

end MergedMining
