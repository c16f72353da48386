import MergedMining.Proofs.Store.Table
import MergedMining.Proofs.Unlock.Look

/-!
# Passes over found blocks

Blocks are inserted, passes go over the pending ones, and others use the daemons meanwhile, in any order.  A
record only ever becomes an amended one (`FoundBlock.Amended`), which a settled record never does.  A block
whose look fails is passed over: its record stays as it is, and the pass goes on with the blocks behind it.
-/

namespace MergedMining

open Daemons (Exchange Reported)

/-! ### Amended records -/

/-- What a record may become.  A pending one gets a new status, progress and reward, and the reported coinbase
when none was recorded; a settled one stays. -/
structure FoundBlock.Amended (new : List Exchange) (b b' : FoundBlock) : Prop where
  same : b' = { b with
    status := b'.status
    progress := b'.progress
    reward := b'.reward
    confirmation := b'.confirmation }
  confirmation : b'.confirmation = b.confirmation ∨
    b.confirmation = "" ∧ ∃ txid, Reported new b.hash txid ∧ Hex.reversePairs txid = .ok b'.confirmation
  final : b.status ≠ .pending → b' = b

namespace FoundBlock.Amended

variable {new newer : List Exchange} {b b' b'' : FoundBlock}

theorem refl (new : List Exchange) (b : FoundBlock) : b.Amended new b := ⟨rfl, .inl rfl, fun _ => rfl⟩

theorem id_eq (h : b.Amended new b') : b'.id = b.id := by rw [h.same]

theorem hash_eq (h : b.Amended new b') : b'.hash = b.hash := by rw [h.same]

theorem trans (h : b.Amended new b') (h' : b'.Amended newer b'') : b.Amended (newer ++ new) b'' where
  same := by
    rw [h'.same, h.same]
  confirmation := by
    have hold : ∀ {txid}, Reported new b.hash txid → Reported (newer ++ new) b.hash txid := fun hreported =>
      hreported.mono (List.subset_append_right _ _)
    rcases h'.confirmation with hkept | ⟨hnone, txid, hreported, htxid⟩
    · rw [hkept]
      exact h.confirmation.imp_right fun ⟨hnone, txid, hreported, htxid⟩ => ⟨hnone, txid, hold hreported, htxid⟩
    · rw [h.hash_eq] at hreported
      refine .inr ⟨?_, txid, hreported.mono (List.subset_append_left _ _), htxid⟩
      exact h.confirmation.elim (fun hkept => hkept.symm.trans hnone) And.left
  final := fun hsettled => by
    obtain rfl := h.final hsettled
    exact h'.final hsettled

end FoundBlock.Amended

theorem Judged.amended {new : List Exchange} {b b' : FoundBlock} (h : Judged new b b')
    (hpending : b.status = .pending) :
    b.Amended new b' := by
  cases h with
  | disowned => exact ⟨rfl, .inl rfl, fun hsettled => absurd hpending hsettled⟩
  | settled hreported hconfirmation hrecorded =>
    refine ⟨rfl, ?_, fun hsettled => absurd hpending hsettled⟩
    rcases hrecorded with hnone | hsame
    · exact .inr ⟨hnone, _, hreported, hconfirmation⟩
    · exact .inl hsame.symm

namespace Store.Table

variable {σ : Type} [Store σ] {T : Store.Table σ} {new newer : List Exchange} {s s' s'' : σ}

/-! ### Kept records -/

/-- Every record is still there, at most amended. -/
def Keeps (T : Store.Table σ) (new : List Exchange) (s s' : σ) : Prop :=
  ∀ id b, T.record? s id = some b → ∃ b', T.record? s' id = some b' ∧ b.Amended new b'

theorem Keeps.trans (h : T.Keeps new s s') (h' : T.Keeps newer s' s'') : T.Keeps (newer ++ new) s s'' := by
  intro id b hb
  obtain ⟨b', hb', hamended⟩ := h id b hb
  obtain ⟨b'', hb'', hamended'⟩ := h' id b' hb'
  exact ⟨b'', hb'', hamended.trans hamended'⟩

theorem Keeps.of_record? (h : ∀ id, T.record? s' id = T.record? s id) : T.Keeps new s s' :=
  fun id b hb => ⟨b, (h id).trans hb, .refl new b⟩

end Store.Table

namespace Unlocker

variable {σ : Type} [Store σ] {T : Store.Table σ} {u v w : Unlocker σ} {new newer : List Exchange}

/-! ### Events -/

/-- What can happen to found blocks: a new one is inserted, a pass goes over the pending ones, or others use the
daemons. -/
inductive Event
  | insert (b : FoundBlock)
  | unlock
  | meanwhile (clusters : List (Chain × Cluster)) (calls : List Call)

/-- The blocks that are inserted. -/
def inserted (es : List Event) : List FoundBlock :=
  es.filterMap fun
    | .insert b => some b
    | _ => none

/-- What happens at an event. -/
def step (u : Unlocker σ) : Event → Unlocker σ
  | .insert b => { u with store := (Store.insertBlock u.store b).2 }
  | .unlock => u.unlock.2
  | .meanwhile clusters calls => { u with clusters, daemons := { u.daemons with calls := calls ++ u.daemons.calls } }

/-- What happens at events in turn. -/
def run (u : Unlocker σ) (es : List Event) : Unlocker σ := es.foldl step u

/-! ### What becomes of records -/

/-- What an unlocker is after some exchanges and insertions.  Every record is still there, at most amended, and
there is no record that was not there before, nor came of a look, nor was inserted. -/
structure Proceeds (T : Store.Table σ) (u : Unlocker σ) (new : List Exchange) (found : List FoundBlock)
    (v : Unlocker σ) : Prop where
  sound : T.IsSound v.store
  daemons : u.daemons.After new v.daemons
  records : T.Keeps new u.store v.store
  origin : ∀ id b, T.record? v.store id = some b → T.record? u.store id = some b ∨ (∃ before, Judged new before b) ∨
    ∃ c ∈ found, b = { c with id }

variable {found others : List FoundBlock}

theorem Proceeds.trans (h : u.Proceeds T new found v) (h' : v.Proceeds T newer others w) :
    u.Proceeds T (newer ++ new) (found ++ others) w where
  sound := h'.sound
  daemons := h.daemons.trans h'.daemons
  records := h.records.trans h'.records
  origin id b hb := by
    rcases h'.origin id b hb with hold | ⟨before, hjudged⟩ | ⟨c, hc, hbc⟩
    · rcases h.origin id b hold with hold | ⟨before, hjudged⟩ | ⟨c, hc, hbc⟩
      · exact .inl hold
      · exact .inr (.inl ⟨before, hjudged.mono (List.subset_append_right _ _)⟩)
      · exact .inr (.inr ⟨c, List.mem_append_left _ hc, hbc⟩)
    · exact .inr (.inl ⟨before, hjudged.mono (List.subset_append_left _ _)⟩)
    · exact .inr (.inr ⟨c, List.mem_append_right _ hc, hbc⟩)

theorem Proceeds.of_record? (hv : T.IsSound v.store) (hdaemons : u.daemons.After new v.daemons)
    (h : ∀ id, T.record? v.store id = T.record? u.store id) : u.Proceeds T new [] v :=
  ⟨hv, hdaemons, .of_record? h, fun id _ hb => .inl ((h id).symm.trans hb)⟩

theorem Onward.proceeds (h : u.Onward new v) (hu : T.IsSound u.store) : u.Proceeds T new [] v :=
  .of_record? (by rwa [h.store]) h.daemons fun id => by rw [h.store]

private theorem proceeds_insertBlock (hu : T.IsSound u.store) (b : FoundBlock) :
    u.Proceeds T [] [b] { u with store := (Store.insertBlock u.store b).2 } := by
  obtain ⟨hsound, hrecord, -⟩ := T.insert_spec hu b
  refine ⟨hsound, .refl _, fun id c hc => ?_, fun id c hc => ?_⟩
  · rcases hrecord id with hkept | ⟨hnone, -⟩
    · exact ⟨c, hkept.trans hc, .refl _ c⟩
    · rw [hnone] at hc
      cases hc
  · rcases hrecord id with hkept | ⟨-, hown⟩
    · exact .inl (hkept.symm.trans hc)
    · rw [hown] at hc
      cases hc
      exact .inr (.inr ⟨b, List.mem_singleton_self b, rfl⟩)

/-- An update replaces the record of one block at most. -/
private theorem proceeds_updateBlock {b b' : FoundBlock} (hu : T.IsSound u.store) (honward : u.Onward new v)
    (hjudged : Judged new b b') (hpending : b.status = .pending) (hstored : T.record? u.store b.id = some b) :
    u.Proceeds T new [] { v with store := (Store.updateBlock v.store b').2 } ∧
      ∀ id, id ≠ b.id → T.record? (Store.updateBlock v.store b').2 id = T.record? u.store id := by
  have hamended := hjudged.amended hpending
  obtain ⟨hsound, hother, hown, -⟩ := T.update_spec hu b'
  rw [hamended.id_eq] at hother hown
  rw [honward.store]
  refine ⟨⟨hsound, honward.daemons, fun id c hc => ?_, fun id c hc => ?_⟩, hother⟩
  · by_cases hid : id = b.id
    · subst hid
      obtain rfl : c = b := Option.some.inj (hc.symm.trans hstored)
      rcases hown with hkept | hreplaced
      · exact ⟨c, hkept.trans hc, .refl new c⟩
      · exact ⟨b', hreplaced, hamended⟩
    · exact ⟨c, (hother id hid).trans hc, .refl new c⟩
  · by_cases hid : id = b.id
    · subst hid
      rcases hown with hkept | hreplaced
      · exact .inl (hkept.symm.trans hc)
      · rw [hreplaced] at hc
        cases hc
        exact .inr (.inl ⟨b, hjudged⟩)
    · exact .inl ((hother id hid).symm.trans hc)

/-! ### One pass -/

/-- Blocks that are about to be looked at: their records are pending, and no two of them have one id. -/
structure Waiting (T : Store.Table σ) (s : σ) (bs : List FoundBlock) : Prop where
  stored : ∀ b ∈ bs, T.record? s b.id = some b
  pending : ∀ b ∈ bs, b.status = .pending
  distinct : bs.Pairwise (·.id ≠ ·.id)

private theorem Waiting.left {s : σ} {before after : List FoundBlock} (h : Waiting T s (before ++ after)) :
    Waiting T s before where
  stored b hb := h.stored b (List.mem_append_left _ hb)
  pending b hb := h.pending b (List.mem_append_left _ hb)
  distinct := (List.pairwise_append.1 h.distinct).1

private theorem Waiting.right {s s' : σ} {before after : List FoundBlock} (h : Waiting T s (before ++ after))
    (hother : ∀ id, (∀ b ∈ before, b.id ≠ id) → T.record? s' id = T.record? s id) : Waiting T s' after where
  stored c hc := by
    rw [hother c.id fun b hb => (List.pairwise_append.1 h.distinct).2.2 b hb c hc]
    exact h.stored c (List.mem_append_right _ hc)
  pending c hc := h.pending c (List.mem_append_right _ hc)
  distinct := (List.pairwise_append.1 h.distinct).2.1

private theorem Waiting.tail {s s' : σ} {b : FoundBlock} {bs : List FoundBlock} (h : Waiting T s (b :: bs))
    (hother : ∀ id, id ≠ b.id → T.record? s' id = T.record? s id) : Waiting T s' bs := by
  have hsplit : Waiting T s ([b] ++ bs) := h
  exact hsplit.right fun id hid => hother id (hid b (List.mem_singleton_self b)).symm

/-- Looking at waiting blocks amends at most their records. -/
private theorem examineAll_proceeds (updated : Nat) {bs : List FoundBlock} (hu : T.IsSound u.store)
    (hbs : Waiting T u.store bs) :
    ∃ new, u.Proceeds T new [] (examineAll updated bs u).2 ∧
      ∀ id, (∀ b ∈ bs, b.id ≠ id) → T.record? (examineAll updated bs u).2.store id = T.record? u.store id := by
  induction bs generalizing updated u with
  | nil => exact ⟨[], (Onward.refl u).proceeds hu, fun _ _ => rfl⟩
  | cons block rest ih =>
    obtain ⟨new, honward, hjudged⟩ := u.examine_judged block
    -- whatever became of the record of this block, the others are still waiting
    have hrest : ∀ n v, u.Proceeds T new [] v → (∀ id, id ≠ block.id → T.record? v.store id = T.record? u.store id) →
        ∃ all, u.Proceeds T all [] (examineAll n rest v).2 ∧ ∀ id, (∀ b ∈ block :: rest, b.id ≠ id) →
          T.record? (examineAll n rest v).2.store id = T.record? u.store id := by
      intro n v hv hother
      have hwaiting : Waiting T v.store rest := hbs.tail hother
      obtain ⟨newer, hproceeds, hothers⟩ := ih n hv.sound hwaiting
      refine ⟨_, hv.trans hproceeds, fun id hid => ?_⟩
      rw [hothers id fun b hb => hid b (List.mem_cons_of_mem _ hb), hother id (hid block List.mem_cons_self).symm]
    rw [examineAll]
    rcases hlook : u.examine block with ⟨e | ⟨_ | _, block'⟩, v⟩
    · rw [hlook] at honward
      exact hrest _ v (honward.proceeds hu) fun id _ => by rw [honward.store]
    · rw [hlook] at honward
      exact hrest _ v (honward.proceeds hu) fun id _ => by rw [honward.store]
    · rw [hlook] at honward hjudged
      obtain ⟨hproceeds, hother⟩ := proceeds_updateBlock hu honward (hjudged true block' rfl)
        (hbs.pending block List.mem_cons_self) (hbs.stored block List.mem_cons_self)
      dsimp only
      rcases hupdate : Store.updateBlock v.store block' with ⟨e | ⟨⟩, store⟩
      · rw [hupdate] at hproceeds hother
        exact ⟨new, hproceeds, fun id hid => hother id (hid block List.mem_cons_self).symm⟩
      · rw [hupdate] at hproceeds hother
        exact hrest _ _ hproceeds hother

private theorem examineAll_append (updated : Nat) (before after : List FoundBlock) (u : Unlocker σ) :
    examineAll updated (before ++ after) u =
      match examineAll updated before u with
      | (.error e, v) => (.error e, v)
      | (.ok n, v) => examineAll n after v := by
  induction before generalizing updated u with
  | nil => rfl
  | cons block rest ih =>
    rw [List.cons_append, examineAll, examineAll]
    rcases u.examine block with ⟨e | ⟨_ | _, block'⟩, v⟩
    · exact ih updated v
    · exact ih updated v
    · dsimp only
      rcases Store.updateBlock v.store block' with ⟨e | ⟨⟩, store⟩
      · rfl
      · exact ih _ _

/-- The blocks of a pass are waiting. -/
private theorem waiting_of_pendingBlocks {s s' : σ} {poolId : String} {bs : List FoundBlock} (hs : T.IsSound s)
    (h : Store.pendingBlocks s poolId = (.ok bs, s')) :
    T.IsSound s' ∧ (∀ id, T.record? s' id = T.record? s id) ∧ Waiting T s' bs := by
  obtain ⟨hsound, hkept, hbs⟩ := T.pending_spec hs poolId
  rw [h] at hsound hkept hbs
  obtain ⟨hdistinct, hmem⟩ := hbs bs rfl
  refine ⟨hsound, hkept, fun b hb => ?_, fun b hb => ((hmem b).1 hb).2.2, hdistinct⟩
  rw [hkept]
  exact ((hmem b).1 hb).1

/-- A pass amends at most pending records. -/
private theorem unlock_proceeds (hu : T.IsSound u.store) : ∃ new, u.Proceeds T new [] u.unlock.2 := by
  obtain ⟨hsound, hkept, -⟩ := T.pending_spec hu u.poolId
  unfold unlock
  rcases hpending : Store.pendingBlocks u.store u.poolId with ⟨e | bs, store⟩
  · rw [hpending] at hsound hkept
    exact ⟨[], .of_record? hsound (.refl _) hkept⟩
  · obtain ⟨hsound, hkept, hwaiting⟩ := waiting_of_pendingBlocks hu hpending
    have hloaded : u.Proceeds T [] [] { u with store } := .of_record? hsound (.refl _) hkept
    obtain ⟨new, hproceeds, -⟩ := examineAll_proceeds (u := { u with store }) 0 hsound hwaiting
    exact ⟨_, hloaded.trans hproceeds⟩

/-- A block whose look fails is passed over. -/
private theorem unlock_of_look_failed (hu : T.IsSound u.store) {bs before after : List FoundBlock}
    {block : FoundBlock} {store : σ} {n : Nat} {e : Failure}
    (hpending : Store.pendingBlocks u.store u.poolId = (.ok bs, store)) (hbs : bs = before ++ block :: after)
    (hbefore : { u with store }.examineAll 0 before = (.ok n, v)) (hlook : v.examine block = (.error e, w)) :
    u.unlock = w.examineAll n after ∧ T.record? u.store block.id = some block ∧
      T.record? u.unlock.2.store block.id = some block := by
  subst hbs
  obtain ⟨hsound, hkept, hwaiting⟩ := waiting_of_pendingBlocks hu hpending
  have hblock : block ∈ before ++ block :: after := List.mem_append_right _ List.mem_cons_self
  have hstored := hwaiting.stored block hblock
  obtain ⟨hdistinct, hbehind⟩ := List.pairwise_append.1 hwaiting.distinct |>.2
  -- what was looked at before this block has other ids
  obtain ⟨new, hv, hother⟩ := examineAll_proceeds (u := { u with store }) 0 hsound hwaiting.left
  rw [hbefore] at hv hother
  obtain ⟨newer, honward, -⟩ := v.examine_judged block
  rw [hlook] at honward
  have hw : T.IsSound w.store := (honward.proceeds hv.sound).sound
  have hafter : Waiting T w.store after := (hwaiting.right hother).tail fun id _ => by rw [honward.store]
  -- and so does what is looked at behind it
  obtain ⟨-, -, hothers⟩ := examineAll_proceeds n hw hafter
  have hpass : u.unlock = w.examineAll n after := by
    unfold unlock
    rw [hpending]
    dsimp only
    rw [examineAll_append, hbefore]
    dsimp only
    rw [examineAll, hlook]
  refine ⟨hpass, (hkept block.id).symm.trans hstored, ?_⟩
  rw [hpass, hothers block.id fun c hc => ((List.pairwise_cons.1 hdistinct).1 c hc).symm, honward.store,
    hother block.id fun c hc => hbehind c hc block List.mem_cons_self]
  exact hstored

/-! ### Runs -/

private theorem step_proceeds (hu : T.IsSound u.store) (e : Event) :
    ∃ new, u.Proceeds T new (inserted [e]) (u.step e) := by
  cases e with
  | insert b => exact ⟨[], proceeds_insertBlock hu b⟩
  | unlock => exact unlock_proceeds hu
  | meanwhile clusters calls =>
    obtain ⟨new, hafter⟩ := u.daemons.exists_after_calls calls
    exact ⟨new, .of_record? hu hafter fun _ => rfl⟩

theorem run_proceeds (hu : T.IsSound u.store) (es : List Event) :
    ∃ new, u.Proceeds T new (inserted es) (u.run es) := by
  induction es generalizing u with
  | nil => exact ⟨[], (Onward.refl u).proceeds hu⟩
  | cons e es ih =>
    obtain ⟨new, hstep⟩ := step_proceeds hu e
    obtain ⟨newer, hrun⟩ := ih hstep.sound
    have hinserted : inserted (e :: es) = inserted [e] ++ inserted es := List.filterMap_append (l := [e])
    rw [hinserted]
    exact ⟨_, hstep.trans hrun⟩

/-- After every run the records are at most amended, and settled ones are as they were.  In the next pass a look
succeeds only when the daemons answered all that it asks for and the answers could be read; a block whose look
fails keeps its record, and the pass goes on with the blocks behind it. -/
theorem run_keeps_records (T : Store.Table σ) {u : Unlocker σ} (hu : T.IsSound u.store) (es : List Event) :
    (∃ new, u.daemons.After new (u.run es).daemons ∧
      ∀ id b, T.record? u.store id = some b → ∃ b', T.record? (u.run es).store id = some b' ∧ b.Amended new b') ∧
    (∀ (v w : Unlocker σ) block changed block', v.examine block = (.ok (changed, block'), w) →
      ∃ asked, v.daemons.After asked w.daemons ∧ Judged asked block block') ∧
    ∀ bs store before block after n v e w,
      Store.pendingBlocks (u.run es).store (u.run es).poolId = (.ok bs, store) → bs = before ++ block :: after →
      { u.run es with store }.examineAll 0 before = (.ok n, v) → v.examine block = (.error e, w) →
        (u.run es).unlock = w.examineAll n after ∧ T.record? (u.run es).store block.id = some block ∧
          T.record? (u.run es).unlock.2.store block.id = some block := by
  obtain ⟨new, hrun⟩ := run_proceeds hu es
  refine ⟨⟨new, hrun.daemons, hrun.records⟩, fun v w block changed block' hlook => ?_, ?_⟩
  · obtain ⟨asked, honward, hjudged⟩ := v.examine_judged block
    rw [hlook] at honward hjudged
    exact ⟨asked, honward.daemons, hjudged changed block' rfl⟩
  · intro bs store before block after n v e w hpending hbs hbefore hlook
    exact unlock_of_look_failed hrun.sound hpending hbs hbefore hlook

/-! ### A sample -/

/-- An unlocker with one node, and some blocks in its store. -/
def scripted (reply : List Call → Call → Except CallFault Json) (blocks : List FoundBlock) : Unlocker Ledger where
  poolId := "pool"
  clusters := [(.litecoin, ⟨"litecoin", [⟨0, 0, "http://litecoin"⟩], 0, false, Nat.zero_lt_one⟩)]
  daemons := ⟨reply, []⟩
  store := { Ledger.empty with blocks }

/-- A found block that nothing is known of yet. -/
def sampleFound : FoundBlock :=
  ⟨2, "pool", "litecoin", 100, 1, .pending, "primary", 0, 0, "", "miner", 0, "hash", ⟨0, 0⟩⟩

/-- A block that was settled. -/
def sampleSettled : FoundBlock :=
  { sampleFound with id := 1, status := .confirmed, progress := 1, reward := 25, confirmation := "00" }

/-- An unlocker whose daemon never answers as expected. -/
def sampleSilent : Unlocker Ledger := scripted (fun _ _ => .error .unexpected) [sampleSettled, sampleFound]

theorem run_keeps_records_sample : Ledger.table.IsSound sampleSilent.store ∧
    Ledger.table.record? (sampleSilent.run [.unlock]).store 1 = some sampleSettled ∧
    Ledger.table.record? (sampleSilent.run [.unlock]).unlock.2.store 2 = some sampleFound := by
  have hsound : Ledger.table.IsSound sampleSilent.store := by
    constructor
    · decide
    · decide
  obtain ⟨⟨_, -, hrecords⟩, -, hpass⟩ := run_keeps_records Ledger.table hsound [.unlock]
  refine ⟨hsound, ?_, ?_⟩
  · obtain ⟨b, hb, hamended⟩ := hrecords 1 sampleSettled rfl
    rw [hamended.final nofun] at hb
    exact hb
  · exact (hpass [sampleFound] _ [] sampleFound [] 0 _ _ _ rfl rfl rfl rfl).2.2

end Unlocker

end MergedMining
