import Mathlib.Data.List.Pairwise
import MergedMining.Store.Ledger

/-!
# Stores as tables

A `Store.Table` shows a store as a table with at most one record for each id.  A new block gets an id of its
own, an update replaces the record of its id and no other, and the pending blocks are read off the table.  An
operation that fails may have had its effect or none.  The store in memory is such a table (`Ledger.table`).
-/

namespace MergedMining

/-- A store seen as a table with at most one record for each id.  Its laws hold in the states that `IsSound`
describes, which no operation leaves. -/
structure Store.Table (σ : Type) [Store σ] where
  IsSound : σ → Prop
  record? : σ → Int → Option FoundBlock
  insert_spec : ∀ {s : σ}, IsSound s → ∀ b : FoundBlock,
    IsSound (Store.insertBlock s b).2 ∧
    (∀ id, record? (Store.insertBlock s b).2 id = record? s id ∨
      record? s id = none ∧ record? (Store.insertBlock s b).2 id = some { b with id }) ∧
    ∀ id, (Store.insertBlock s b).1 = .ok id → record? (Store.insertBlock s b).2 id = some { b with id }
  update_spec : ∀ {s : σ}, IsSound s → ∀ b : FoundBlock,
    IsSound (Store.updateBlock s b).2 ∧
    (∀ id, id ≠ b.id → record? (Store.updateBlock s b).2 id = record? s id) ∧
    (record? (Store.updateBlock s b).2 b.id = record? s b.id ∨ record? (Store.updateBlock s b).2 b.id = some b) ∧
    ((Store.updateBlock s b).1 = .ok () → record? (Store.updateBlock s b).2 b.id = some b)
  pending_spec : ∀ {s : σ}, IsSound s → ∀ poolId : String,
    IsSound (Store.pendingBlocks s poolId).2 ∧
    (∀ id, record? (Store.pendingBlocks s poolId).2 id = record? s id) ∧
    ∀ bs, (Store.pendingBlocks s poolId).1 = .ok bs → bs.Pairwise (·.id ≠ ·.id) ∧
      ∀ b, b ∈ bs ↔ record? s b.id = some b ∧ b.poolId = poolId ∧ b.status = .pending

namespace Ledger

/-! ### One block for each id -/

/-- The record of an id. -/
def record? (l : Ledger) (id : Int) : Option FoundBlock := l.blocks.find? (·.id = id)

/-- No two blocks have one id, and the next id is free. -/
structure IsSound (l : Ledger) : Prop where
  distinct : l.blocks.Pairwise (·.id ≠ ·.id)
  le_length : ∀ b ∈ l.blocks, b.id ≤ l.blocks.length

variable {l : Ledger} {b : FoundBlock} {bs bs' : List FoundBlock} {id : Int}

private theorem mem_iff_find? (h : bs.Pairwise (·.id ≠ ·.id)) : b ∈ bs ↔ bs.find? (·.id = b.id) = some b := by
  refine ⟨fun hb => ?_, List.mem_of_find?_eq_some⟩
  induction bs with
  | nil => cases hb
  | cons c cs ih =>
    obtain ⟨hne, hrest⟩ := List.pairwise_cons.1 h
    rcases List.mem_cons.1 hb with rfl | hb
    · exact List.find?_cons_of_pos (by simp)
    · rw [List.find?_cons_of_neg (by simpa using hne b hb)]
      exact ih hrest hb

private theorem find?_append_singleton (id : Int) :
    (bs ++ [b]).find? (·.id = id) = (bs.find? (·.id = id)).or (if b.id = id then some b else none) := by
  rw [List.find?_append]
  by_cases hid : b.id = id
  · simp [hid]
  · simp [hid]

private theorem ids_of_replace (h : replace b bs = some bs') : bs'.map (·.id) = bs.map (·.id) := by
  induction bs generalizing bs' with
  | nil => cases h
  | cons c cs ih =>
    rw [replace] at h
    by_cases hid : c.id = b.id
    · rw [if_pos hid] at h
      cases h
      simp [hid]
    · rw [if_neg hid] at h
      obtain ⟨cs', hcs, rfl⟩ := Option.map_eq_some_iff.1 h
      rw [List.map_cons, List.map_cons, ih hcs]

private theorem find?_of_replace (h : replace b bs = some bs') (id : Int) :
    bs'.find? (·.id = id) = if id = b.id then some b else bs.find? (·.id = id) := by
  induction bs generalizing bs' with
  | nil => cases h
  | cons c cs ih =>
    rw [replace] at h
    by_cases hc : c.id = b.id
    · rw [if_pos hc] at h
      cases h
      by_cases hid : id = b.id
      · simp [hid]
      · have hne : ¬ b.id = id := fun heq => hid heq.symm
        simp [hc, hne, hid]
    · rw [if_neg hc] at h
      obtain ⟨cs', hcs, rfl⟩ := Option.map_eq_some_iff.1 h
      rw [List.find?_cons, List.find?_cons, ih hcs]
      by_cases hid : id = b.id
      · simp [hid, hc]
      · simp [hid]

private theorem IsSound.insert (h : l.IsSound) (b : FoundBlock) :
    IsSound { l with blocks := l.blocks ++ [{ b with id := l.blocks.length + 1 }] } := by
  refine ⟨List.pairwise_append.2 ⟨h.distinct, List.pairwise_singleton _ _, ?_⟩, ?_⟩
  · intro c hc d hd
    rw [List.mem_singleton.1 hd]
    have := h.le_length c hc
    dsimp only
    omega
  · intro c hc
    rw [List.length_append, List.length_singleton]
    rcases List.mem_append.1 hc with hc | hc
    · have := h.le_length c hc
      omega
    · rw [List.mem_singleton.1 hc]
      dsimp only
      omega

private theorem IsSound.replace (h : l.IsSound) (hbs : replace b l.blocks = some bs) :
    IsSound { l with blocks := bs } := by
  have hids := ids_of_replace hbs
  have hlength : bs.length = l.blocks.length := by simpa using congrArg List.length hids
  refine ⟨?_, fun c hc => ?_⟩
  · have hdistinct := List.pairwise_map.2 h.distinct
    rw [← hids] at hdistinct
    exact List.pairwise_map.1 hdistinct
  · have hmem : c.id ∈ l.blocks.map (·.id) := hids ▸ List.mem_map_of_mem hc
    obtain ⟨d, hd, hid⟩ := List.mem_map.1 hmem
    have := h.le_length d hd
    dsimp only
    omega

private theorem IsSound.record?_next (h : l.IsSound) : l.record? (l.blocks.length + 1) = none := by
  refine List.find?_eq_none.2 fun c hc => ?_
  have := h.le_length c hc
  simp only [decide_eq_true_eq]
  omega

/-! ### The table -/

private theorem insertBlock_eq (l : Ledger) (b : FoundBlock) : Store.insertBlock l b =
    l.attempt .insertBlock fun l => (.ok (l.blocks.length + 1 : Int),
      { l with blocks := l.blocks ++ [{ b with id := l.blocks.length + 1 }] }) := rfl

private theorem updateBlock_eq (l : Ledger) (b : FoundBlock) : Store.updateBlock l b =
    l.attempt .updateBlock fun l =>
      match replace b l.blocks with
      | some blocks => (.ok (), { l with blocks })
      | none => (.error (.unknownBlock b.id), l) := rfl

private theorem pendingBlocks_eq (l : Ledger) (poolId : String) : Store.pendingBlocks l poolId =
    l.attempt .pendingBlocks fun l =>
      (.ok (l.blocks.filter fun b => b.poolId = poolId ∧ b.status = .pending), l) := rfl

/-- A planned failure leaves the blocks alone. -/
private theorem attempt_cases {α : Type} (l : Ledger) (operation : StoreOperation)
    (run : Ledger → Except StoreFault α × Ledger) : l.attempt operation run = run l ∨
      ∃ l' : Ledger, l.attempt operation run = (.error .unavailable, l') ∧ l'.blocks = l.blocks := by
  unfold attempt
  split
  · exact .inl rfl
  · exact .inr ⟨_, rfl, rfl⟩

private theorem IsSound.of_blocks {l' : Ledger} (h : l.IsSound) (hblocks : l'.blocks = l.blocks) : l'.IsSound :=
  ⟨hblocks ▸ h.distinct, hblocks ▸ h.le_length⟩

private theorem record?_of_blocks {l' : Ledger} (hblocks : l'.blocks = l.blocks) (id : Int) :
    l'.record? id = l.record? id := by
  rw [record?, record?, hblocks]

/-- The store in memory is a table. -/
def table : Store.Table Ledger where
  IsSound := IsSound
  record? := record?
  insert_spec {l} h b := by
    rw [insertBlock_eq]
    rcases attempt_cases l .insertBlock _ with heq | ⟨l', heq, hblocks⟩
    · rw [heq]
      have hrecord (id : Int) : record? { l with blocks := l.blocks ++ [{ b with id := l.blocks.length + 1 }] } id =
          (l.record? id).or
            (if (l.blocks.length + 1 : Int) = id then some { b with id := l.blocks.length + 1 } else none) :=
        find?_append_singleton id
      refine ⟨h.insert b, fun id => ?_, fun id hid => ?_⟩
      · by_cases hnew : (l.blocks.length + 1 : Int) = id
        · right
          rw [hrecord, ← hnew, h.record?_next, if_pos rfl]
          exact ⟨rfl, rfl⟩
        · left
          rw [hrecord, if_neg hnew, Option.or_none]
      · cases hid
        rw [hrecord, h.record?_next, if_pos rfl]
        rfl
    · rw [heq]
      exact ⟨h.of_blocks hblocks, fun id => .inl (record?_of_blocks hblocks id), nofun⟩
  update_spec {l} h b := by
    rw [updateBlock_eq]
    rcases attempt_cases l .updateBlock _ with heq | ⟨l', heq, hblocks⟩
    · rw [heq]
      rcases hreplace : replace b l.blocks with _ | bs
      · exact ⟨h, fun _ _ => rfl, .inl rfl, nofun⟩
      · have hrecord := find?_of_replace hreplace
        have hown : record? { l with blocks := bs } b.id = some b := (hrecord b.id).trans (if_pos rfl)
        exact ⟨h.replace hreplace, fun id hne => (hrecord id).trans (if_neg hne), .inr hown, fun _ => hown⟩
    · rw [heq]
      exact ⟨h.of_blocks hblocks, fun id _ => record?_of_blocks hblocks id, .inl (record?_of_blocks hblocks _), nofun⟩
  pending_spec {l} h poolId := by
    rw [pendingBlocks_eq]
    rcases attempt_cases l .pendingBlocks _ with heq | ⟨l', heq, hblocks⟩
    · rw [heq]
      refine ⟨h, fun _ => rfl, fun bs hbs => ?_⟩
      cases hbs
      refine ⟨h.distinct.filter _, fun b => ?_⟩
      rw [List.mem_filter, decide_eq_true_eq, mem_iff_find? h.distinct]
      rfl
    · rw [heq]
      exact ⟨h.of_blocks hblocks, fun id => record?_of_blocks hblocks id, nofun⟩

theorem isSound_empty : empty.IsSound := ⟨.nil, nofun⟩

end Ledger

end MergedMining
