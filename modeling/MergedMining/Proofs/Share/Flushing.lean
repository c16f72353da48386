import MergedMining.Share.Flusher
import MergedMining.Store.Ledger

/-!
# Shares on their way to the store

Miners go on handing in work while a batch is being stored, and a batch that was refused is put back in front of
what came in meanwhile.  `Flushing` is a buffer with its one flusher, moved in single steps between which
anything may be pushed.  At every moment what is stored, in flight and waiting is what was pushed, in the order
of pushing (`pushed_conserved`).  A flush that nothing comes between is such steps in a row
(`exists_run?_flush`), and so is all that a periodic flusher does (`Flusher.flushes_advance`,
`Flusher.flushes_cancel`).
-/

namespace MergedMining

/-- A store keeps all shares of a batch, behind those that it kept before, or none of them. -/
structure Store.AllOrNone {σ : Type} [Store σ] (stored : σ → List Share) : Prop where
  ok : ∀ {store store' : σ} {batch : List Share},
    Store.insertShares store batch = (.ok (), store') → stored store' = stored store ++ batch
  error : ∀ {store store' : σ} {batch : List Share} {e : StoreFault},
    Store.insertShares store batch = (.error e, store') → stored store' = stored store

theorem Ledger.allOrNone : Store.AllOrNone Ledger.shares where
  ok {store store' batch} h := by
    change store.attempt .insertShares _ = _ at h
    unfold Ledger.attempt at h
    split at h
    · cases h
      rfl
    · cases h
  error {store store' batch e} h := by
    change store.attempt .insertShares _ = _ at h
    unfold Ledger.attempt at h
    split at h
    · cases h
    · cases h
      rfl

/-- A buffer, the store that it is flushed to, and its flusher: whether the store has refused the batch in
flight, and what the last flush that ended came to. -/
structure Flushing (σ : Type) where
  buffer : ShareBuffer
  store : σ
  refused : Option StoreFault
  last : Option ShareBuffer.FlushResult

namespace Flushing

variable {σ : Type}

/-- Nothing waits, and there was no flush yet. -/
def ofStore (store : σ) : Flushing σ := ⟨.empty, store, none, none⟩

/-! ### Steps -/

/-- What can come next: a share is pushed, the flusher takes the batch, the store answers, or the flusher puts
the batch back that was refused. -/
inductive Event
  | push (share : Share)
  | take
  | answer
  | putBack

/-- What comes of an event, if it can come next.  With nothing to take, a flush ends at once. -/
def step? [Store σ] (f : Flushing σ) : Event → Option (Flushing σ)
  | .push share => some { f with buffer := f.buffer.push share }
  | .take =>
    match f.buffer.inFlight with
    | some _ => none
    | none =>
      if f.buffer.waiting.isEmpty then some { f with last := some (.ok 0) }
      else some { f with buffer := f.buffer.take }
  | .answer =>
    match f.buffer.inFlight, f.refused with
    | some batch, none =>
      match Store.insertShares f.store batch with
      | (.ok (), store) => some ⟨f.buffer.settle true, store, none, some (.ok batch.length)⟩
      | (.error e, store) => some { f with store, refused := some e }
    | _, _ => none
  | .putBack =>
    match f.buffer.inFlight, f.refused with
    | some batch, some e => some ⟨f.buffer.settle false, f.store, none, some (.error (batch.length, e))⟩
    | _, _ => none

/-- What comes of events in turn, if they can come in this order. -/
def run? [Store σ] (f : Flushing σ) (es : List Event) : Option (Flushing σ) := es.foldlM step? f

/-- The shares that are pushed at events, in order. -/
def pushed (es : List Event) : List Share :=
  es.filterMap fun e => match e with
    | .push share => some share
    | _ => none

/-- The outcomes of an event that can come next. -/
inductive Stepped [Store σ] (f : Flushing σ) : Event → Flushing σ → Prop
  | pushed {share : Share} : Stepped f (.push share) { f with buffer := f.buffer.push share }
  | tookNothing (hwaiting : f.buffer.waiting = []) : Stepped f .take { f with last := some (.ok 0) }
  | took (hidle : f.buffer.inFlight = none) : Stepped f .take { f with buffer := f.buffer.take }
  | stored {batch : List Share} {store : σ} (hbatch : f.buffer.inFlight = some batch)
      (hinsert : Store.insertShares f.store batch = (.ok (), store)) :
      Stepped f .answer ⟨⟨f.buffer.waiting, none⟩, store, none, some (.ok batch.length)⟩
  | refused {batch : List Share} {store : σ} {e : StoreFault} (hbatch : f.buffer.inFlight = some batch)
      (hinsert : Store.insertShares f.store batch = (.error e, store)) :
      Stepped f .answer { f with store, refused := some e }
  | putBack {batch : List Share} {e : StoreFault} (hbatch : f.buffer.inFlight = some batch) :
      Stepped f .putBack ⟨⟨batch ++ f.buffer.waiting, none⟩, f.store, none, some (.error (batch.length, e))⟩

variable [Store σ] {f f' : Flushing σ} {e : Event} {es : List Event}

theorem stepped_of_step? (h : f.step? e = some f') : f.Stepped e f' := by
  cases e with
  | push share =>
    cases h
    exact .pushed
  | take =>
    simp only [step?] at h
    split at h
    · cases h
    · next hidle =>
      split at h
      · next hempty =>
        cases h
        exact .tookNothing (List.isEmpty_iff.1 hempty)
      · cases h
        exact .took hidle
  | answer =>
    simp only [step?, ShareBuffer.settle] at h
    split at h
    · next batch hbatch _ =>
      simp only [hbatch] at h
      split at h
      · next store hinsert =>
        cases h
        exact .stored hbatch hinsert
      · next e store hinsert =>
        cases h
        exact .refused hbatch hinsert
    · cases h
  | putBack =>
    simp only [step?, ShareBuffer.settle] at h
    split at h
    · next batch e hbatch _ =>
      simp only [hbatch] at h
      cases h
      exact .putBack hbatch
    · cases h

theorem run?_cons_eq_some : f.run? (e :: es) = some f' ↔ ∃ g, f.step? e = some g ∧ g.run? es = some f' := by
  simp only [run?, List.foldlM_cons]
  exact Option.bind_eq_some_iff

theorem run?_append (f : Flushing σ) (es es' : List Event) : f.run? (es ++ es') = (f.run? es).bind (·.run? es') :=
  List.foldlM_append

/-! ### What was pushed is kept -/

/-- The shares that are stored, those in flight and those that wait, in this order. -/
def pieces (stored : σ → List Share) (f : Flushing σ) : List Share :=
  stored f.store ++ f.buffer.inFlight.getD [] ++ f.buffer.waiting

theorem Stepped.pieces {stored : σ → List Share} (hstored : Store.AllOrNone stored) (h : f.Stepped e f') :
    f'.pieces stored = f.pieces stored ++ Flushing.pushed [e] := by
  cases h with
  | pushed => simp [Flushing.pieces, Flushing.pushed, ShareBuffer.push]
  | tookNothing => simp [Flushing.pieces, Flushing.pushed]
  | took hidle => simp [Flushing.pieces, Flushing.pushed, ShareBuffer.take, hidle]
  | stored hbatch hinsert => simp [Flushing.pieces, Flushing.pushed, hbatch, hstored.ok hinsert]
  | refused hbatch hinsert => simp [Flushing.pieces, Flushing.pushed, hstored.error hinsert]
  | putBack hbatch => simp [Flushing.pieces, Flushing.pushed, hbatch]

theorem pieces_run? {stored : σ → List Share} (hstored : Store.AllOrNone stored) (h : f.run? es = some f') :
    f'.pieces stored = f.pieces stored ++ Flushing.pushed es := by
  induction es generalizing f with
  | nil =>
    cases h
    simp [Flushing.pushed]
  | cons e es ih =>
    obtain ⟨g, hstep, hrun⟩ := run?_cons_eq_some.1 h
    rw [ih hrun, (stepped_of_step? hstep).pieces hstored, List.append_assoc, Flushing.pushed, Flushing.pushed,
      ← List.filterMap_append]
    rfl

/-! ### An empty buffer -/

/-- Nothing has come since a batch was taken: if anything waits, then because the batch was put back. -/
def Drained (f : Flushing σ) : Prop :=
  f.buffer.waiting = [] ∨ f.buffer.inFlight = none ∧ ∃ fault, f.last = some (.error fault)

theorem Stepped.drained (h : f.Stepped e f') (htake : e = .take ∨ f.Drained) (hpush : ∀ share, e ≠ .push share) :
    f'.Drained := by
  cases h with
  | pushed => exact absurd rfl (hpush _)
  | tookNothing hwaiting => exact .inl hwaiting
  | took => exact .inl rfl
  | stored hbatch =>
    rcases htake with htake | hwaiting | ⟨hnone, -⟩
    · cases htake
    · exact .inl hwaiting
    · rw [hbatch] at hnone
      cases hnone
  | refused hbatch =>
    rcases htake with htake | hwaiting | ⟨hnone, -⟩
    · cases htake
    · exact .inl hwaiting
    · rw [hbatch] at hnone
      cases hnone
  | putBack => exact .inr ⟨rfl, _, rfl⟩

theorem drained_run? (hdrained : f.Drained) (h : f.run? es = some f') (hpush : ∀ share, Event.push share ∉ es) :
    f'.Drained := by
  induction es generalizing f with
  | nil =>
    cases h
    exact hdrained
  | cons e es ih =>
    obtain ⟨g, hstep, hrun⟩ := run?_cons_eq_some.1 h
    refine ih ((stepped_of_step? hstep).drained (.inr hdrained) fun share he => ?_) hrun fun share hmem =>
      hpush share (List.mem_cons_of_mem _ hmem)
    exact hpush share (he ▸ List.mem_cons_self)

/-- With a store that keeps all shares of a batch or none, what is stored, in flight and waiting is at every
moment what was pushed, in the order of pushing.  When nothing was pushed since the batch was taken, and the
last flush that ended was successful, nothing waits. -/
theorem pushed_conserved {stored : σ → List Share} (hstored : Store.AllOrNone stored) (store : σ) :
    (∀ {es : List Event} {f : Flushing σ}, (ofStore store).run? es = some f →
      stored f.store ++ f.buffer.inFlight.getD [] ++ f.buffer.waiting = stored store ++ pushed es) ∧
    ∀ {front back : List Event} {f : Flushing σ} {count : Nat},
      (ofStore store).run? (front ++ .take :: back) = some f →
      (∀ share, Event.push share ∉ back) → f.last = some (.ok count) → f.buffer.waiting = [] := by
  constructor
  · intro es f h
    have hpieces := pieces_run? hstored h
    simpa [pieces, ofStore, ShareBuffer.empty] using hpieces
  · intro front back f count h hpush hlast
    rw [run?_append] at h
    obtain ⟨g, -, htaken⟩ := Option.bind_eq_some_iff.1 h
    obtain ⟨g', hstep, hrun⟩ := run?_cons_eq_some.1 htaken
    have hdrained := drained_run? ((stepped_of_step? hstep).drained (.inl rfl) fun _ => nofun) hrun hpush
    rcases hdrained with hwaiting | ⟨-, fault, herror⟩
    · exact hwaiting
    · rw [hlast] at herror
      cases herror

/-- A share of the sample, told apart by its height. -/
def sampleShare (height : UInt64) : Share where
  poolId := "pool"
  height
  miner := "D1111111111111111111111111111"
  worker := "rig"
  userAgent := ""
  difficulty := 1
  networkDifficulty := 1
  ip := "10.0.0.1"
  created := ⟨0, 0⟩

/-- The store refuses a batch while two more shares come in, and then takes everything. -/
theorem pushed_conserved_sample :
    ∃ f, (ofStore (Ledger.empty.plan .insertShares 1)).run? ([.push (sampleShare 1), .take, .push (sampleShare 2),
        .answer, .push (sampleShare 3), .putBack] ++ .take :: [.answer]) = some f ∧
      f.last = some (.ok 3) ∧ f.store.shares ++ f.buffer.inFlight.getD [] ++ f.buffer.waiting =
        [sampleShare 1, sampleShare 2, sampleShare 3] ∧ f.buffer.waiting = [] := by
  obtain ⟨f, hrun, hlast⟩ : ∃ f, (ofStore (Ledger.empty.plan .insertShares 1)).run? ([.push (sampleShare 1), .take,
      .push (sampleShare 2), .answer, .push (sampleShare 3), .putBack] ++ .take :: [.answer]) = some f ∧
      f.last = some (.ok 3) := ⟨_, rfl, rfl⟩
  have hconserved := pushed_conserved Ledger.allOrNone (Ledger.empty.plan .insertShares 1)
  exact ⟨f, hrun, hlast, hconserved.1 hrun, hconserved.2 hrun (by simp) hlast⟩

/-! ### Flushes that nothing comes between -/

theorem exists_run?_flush (buffer : ShareBuffer) (store : σ) (last : Option ShareBuffer.FlushResult)
    (hidle : buffer.inFlight = none) :
    (buffer.flush store).2.1.inFlight = none ∧ ∃ es, (∀ share, Event.push share ∉ es) ∧
      run? ⟨buffer, store, none, last⟩ es =
        some ⟨(buffer.flush store).2.1, (buffer.flush store).2.2, none, some (buffer.flush store).1⟩ := by
  obtain ⟨waiting, _⟩ := buffer
  cases hidle
  rcases waiting with _ | ⟨share, rest⟩
  · exact ⟨rfl, [.take], by simp, rfl⟩
  rcases hinsert : Store.insertShares store (share :: rest) with ⟨e | _, store'⟩
  · refine ⟨?_, [.take, .answer, .putBack], by simp, ?_⟩
    all_goals simp [ShareBuffer.flush, run?, step?, ShareBuffer.take, ShareBuffer.settle, hinsert]
  · refine ⟨?_, [.take, .answer], by simp, ?_⟩
    all_goals simp [ShareBuffer.flush, run?, step?, ShareBuffer.take, ShareBuffer.settle, hinsert]

end Flushing

namespace Flusher

variable {σ : Type} [Store σ] {f g h : Flusher σ}

/-- A flusher came from one state to another by steps in a row, with nothing pushed between them. -/
def Flushes (f g : Flusher σ) : Prop :=
  f.buffer.inFlight = none → g.buffer.inFlight = none ∧ ∀ last, ∃ es last',
    (∀ share, Flushing.Event.push share ∉ es) ∧
    Flushing.run? ⟨f.buffer, f.store, none, last⟩ es = some ⟨g.buffer, g.store, none, last'⟩

theorem Flushes.refl (f : Flusher σ) : f.Flushes f :=
  fun hidle => ⟨hidle, fun last => ⟨[], last, by simp, rfl⟩⟩

theorem Flushes.trans (hfg : f.Flushes g) (hgh : g.Flushes h) : f.Flushes h := by
  intro hidle
  obtain ⟨hidle', hrun⟩ := hfg hidle
  obtain ⟨hidle'', hrun'⟩ := hgh hidle'
  refine ⟨hidle'', fun last => ?_⟩
  obtain ⟨es, mid, hes, heq⟩ := hrun last
  obtain ⟨es', last', hes', heq'⟩ := hrun' mid
  refine ⟨es ++ es', last', fun share hmem => ?_, ?_⟩
  · exact (List.mem_append.1 hmem).elim (hes share) (hes' share)
  · rw [Flushing.run?_append, heq]
    exact heq'

theorem flushes_flush (f : Flusher σ) : f.Flushes f.flush.2 := by
  intro hidle
  refine ⟨(Flushing.exists_run?_flush f.buffer f.store none hidle).1, fun last => ?_⟩
  obtain ⟨-, es, hes, hrun⟩ := Flushing.exists_run?_flush f.buffer f.store last hidle
  exact ⟨es, _, hes, hrun⟩

theorem flushes_ring (f : Flusher σ) : f.Flushes f.ring :=
  flushes_flush { f with timers := f.timers.rearm () }

theorem flushes_advance (n : Nat) (f : Flusher σ) : f.Flushes (advance n f) := by
  induction n generalizing f with
  | zero => exact .refl f
  | succ n ih =>
    have hrings : ∀ (tasks : List Unit) (g : Flusher σ), g.Flushes (tasks.foldl (fun g _ => g.ring) g) := by
      intro tasks
      induction tasks with
      | nil => exact .refl
      | cons _ tasks ih => exact fun g => g.flushes_ring.trans (ih g.ring)
    exact Flushes.trans (hrings (f.timers.ringing (f.now + 1)) { f with now := f.now + 1 }) (ih _)

theorem flushes_cancel (f : Flusher σ) : f.Flushes f.cancel.2 := by
  unfold cancel
  split
  · exact f.flushes_flush
  · exact .refl f

end Flusher

end MergedMining
