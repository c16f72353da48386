import MergedMining.Proofs.Store.Journal

/-!
# A journal is a table of blocks

A journal only ever grows, and is read from its beginning whenever the pending blocks are asked for.  All the
same it behaves as a table in which the record of a block is replaced (`table_of_run`): ids are given out in
increasing order, also after the journal was closed and opened again, a block can be replaced when its id was
given out, and the pending blocks are those whose latest record says so.
-/

namespace MergedMining

namespace Journal

/-! ### The latest record of every block -/

private theorem mem_put {b x : FoundBlock} {bs : List FoundBlock} (hsorted : bs.Pairwise (·.id < ·.id)) :
    x ∈ put b bs ↔ x = b ∨ (x ∈ bs ∧ x.id ≠ b.id) := by
  induction bs with
  | nil => simp [put]
  | cons c cs ih =>
    obtain ⟨hless, hsorted⟩ := List.pairwise_cons.1 hsorted
    rw [put]
    split
    · next heq =>
      have hrest : x ∈ cs → x.id ≠ b.id := fun hx => by have := hless x hx; omega
      rw [List.mem_cons, List.mem_cons]
      refine or_congr_right ⟨fun hx => ⟨.inr hx, hrest hx⟩, ?_⟩
      rintro ⟨rfl | hx, hne⟩
      · exact absurd heq.symm hne
      · exact hx
    split
    · next hlt =>
      have hne : x ∈ c :: cs → x.id ≠ b.id := by
        intro hx
        rcases List.mem_cons.1 hx with rfl | hx
        · omega
        · have := hless x hx
          omega
      rw [List.mem_cons]
      exact or_congr_right ⟨fun hx => ⟨hx, hne hx⟩, fun hx => hx.1⟩
    · next hne hnlt =>
      rw [List.mem_cons, ih hsorted, List.mem_cons]
      constructor
      · rintro (rfl | rfl | ⟨hx, hid⟩)
        · exact .inr ⟨.inl rfl, fun heq => hne heq.symm⟩
        · exact .inl rfl
        · exact .inr ⟨.inr hx, hid⟩
      · rintro (rfl | ⟨rfl | hx, hid⟩)
        · exact .inr (.inl rfl)
        · exact .inl rfl
        · exact .inr (.inr ⟨hx, hid⟩)

private theorem pairwise_put {b : FoundBlock} {bs : List FoundBlock} (hsorted : bs.Pairwise (·.id < ·.id)) :
    (put b bs).Pairwise (·.id < ·.id) := by
  induction bs with
  | nil => exact List.pairwise_singleton _ _
  | cons c cs ih =>
    obtain ⟨hless, hrest⟩ := List.pairwise_cons.1 hsorted
    rw [put]
    split
    · next heq => exact List.pairwise_cons.2 ⟨fun x hx => heq ▸ hless x hx, hrest⟩
    split
    · next hlt =>
      refine List.pairwise_cons.2 ⟨fun x hx => ?_, hsorted⟩
      rcases List.mem_cons.1 hx with rfl | hx
      · exact hlt
      · have := hless x hx
        omega
    · next hne hnlt =>
      refine List.pairwise_cons.2 ⟨fun x hx => ?_, ih hrest⟩
      rcases (mem_put hrest).1 hx with rfl | ⟨hx, -⟩
      · omega
      · exact hless x hx

/-- The last of some blocks with an id. -/
def latest? (bs : List FoundBlock) (id : Int) : Option FoundBlock := bs.reverse.find? (·.id = id)

private theorem latest?_concat (bs : List FoundBlock) (b : FoundBlock) (id : Int) :
    latest? (bs ++ [b]) id = if b.id = id then some b else latest? bs id := by
  unfold latest?
  rw [List.reverse_concat, List.find?_cons]
  by_cases h : b.id = id
  · simp [h]
  · simp [h]

/-- Putting blocks in their places one after the other leaves the last one of every id, in id order. -/
theorem foldl_put_spec (bs : List FoundBlock) :
    (bs.foldl (fun bs b => put b bs) []).Pairwise (·.id < ·.id) ∧
      ∀ x, x ∈ bs.foldl (fun bs b => put b bs) [] ↔ latest? bs x.id = some x := by
  induction bs using List.reverseRecOn with
  | nil => exact ⟨.nil, fun x => by simp [latest?]⟩
  | append_singleton bs b ih =>
    obtain ⟨hsorted, hmem⟩ := ih
    rw [List.foldl_concat]
    refine ⟨pairwise_put hsorted, fun x => ?_⟩
    rw [mem_put hsorted, hmem, latest?_concat]
    split
    · next heq =>
      constructor
      · rintro (rfl | ⟨-, hne⟩)
        · rfl
        · exact absurd heq.symm hne
      · intro h
        exact .inl (Option.some.inj h).symm
    · next hne =>
      constructor
      · rintro (rfl | ⟨h, -⟩)
        · exact absurd rfl hne
        · exact h
      · exact fun h => .inr ⟨h, fun heq => hne heq.symm⟩

/-! ### Ids -/

private theorem greatest_concat (ids : List Int) {id : Int} (h : 0 ≤ id) :
    greatest (ids ++ [id]) = max (greatest ids) id := by
  rcases ids with _ | ⟨first, ids⟩
  · exact (max_eq_right h).symm
  · show (ids ++ [id]).foldl max first = _
    rw [List.foldl_concat]
    rfl

private theorem issuedIds_append (rs rs' : List Record) : issuedIds (rs ++ rs') = issuedIds rs ++ issuedIds rs' :=
  List.filterMap_append

/-- The first `n` ids. -/
def firstIds (n : Nat) : List Int := (List.range n).map fun k : Nat => (k : Int) + 1

private theorem firstIds_succ (n : Nat) : firstIds (n + 1) = firstIds n ++ [(n : Int) + 1] := by
  rw [firstIds, List.range_succ, List.map_append]
  rfl

private theorem mem_firstIds {n : Nat} {id : Int} : id ∈ firstIds n ↔ 0 < id ∧ id < n + 1 := by
  rw [firstIds, List.mem_map]
  constructor
  · rintro ⟨k, hk, rfl⟩
    have hlt := List.mem_range.1 hk
    omega
  · rintro ⟨hlow, hhigh⟩
    exact ⟨(id - 1).toNat, List.mem_range.2 (by omega), by omega⟩

private theorem pairwise_firstIds (n : Nat) : (firstIds n).Pairwise (· < ·) := by
  rw [firstIds, List.pairwise_map]
  exact List.pairwise_lt_range.imp fun h => by omega

private theorem greatest_firstIds (n : Nat) : greatest (firstIds n) = n := by
  induction n with
  | zero => rfl
  | succ n ih =>
    rw [firstIds_succ, greatest_concat _ (by omega), ih]
    omega

/-! ### Histories -/

/-- A call of a journal, or its closing and opening. -/
inductive Call
  | insertShares (shares : List Share)
  | insertBlock (block : FoundBlock)
  | updateBlock (block : FoundBlock)
  | reopen

/-- All that the call hands over is read as it is written. -/
def Call.IsStorable : Call → Prop
  | .insertShares shares => ∀ s ∈ shares, s.IsStorable
  | .insertBlock b => b.IsStorable
  | .updateBlock b => b.IsStorable
  | .reopen => True

/-- Whether the call asks for an id. -/
def Call.isInsert : Call → Bool
  | .insertBlock _ => true
  | _ => false

/-- A journal, the ids that it returned, and the blocks that it was handed with their ids, both in call order. -/
structure History where
  journal : Journal
  issued : List Int
  handed : List FoundBlock

namespace History

/-- An empty text that was opened. -/
def start : Except StoreFault History := (ofText "").map fun j => ⟨j, [], []⟩

/-- A call that succeeds. -/
def step (h : History) : Call → Except StoreFault History
  | .insertShares shares =>
    match Store.insertShares h.journal shares with
    | (.ok (), journal) => .ok { h with journal }
    | (.error e, _) => .error e
  | .insertBlock b =>
    match Store.insertBlock h.journal b with
    | (.ok id, journal) => .ok ⟨journal, h.issued ++ [id], h.handed ++ [{ b with id }]⟩
    | (.error e, _) => .error e
  | .updateBlock b =>
    match Store.updateBlock h.journal b with
    | (.ok (), journal) => .ok { h with journal, handed := h.handed ++ [b] }
    | (.error e, _) => .error e
  | .reopen => (ofText h.journal.text).map fun journal => { h with journal }

/-- Calls that succeed one after the other. -/
def run (calls : List Call) : Except StoreFault History := do
  calls.foldlM step (← start)

/-- The text holds what the journal was handed, and the counter follows the ids that were returned. -/
private structure Sound (h : History) (n : Nat) : Prop where
  whole : IsWhole h.journal.text
  records : ∃ rs, records h.journal.text = .ok rs ∧ issuedIds rs = h.issued ∧ rs.filterMap Record.block? = h.handed
  issued : h.issued = firstIds n
  nextId : h.journal.nextId = n + 1

variable {h h' : History} {n : Nat} {c : Call}

private theorem Sound.ofText_text (hs : h.Sound n) : ofText h.journal.text = .ok h.journal := by
  obtain ⟨rs, hrecords, hissued, -⟩ := hs.records
  rw [ofText, hrecords]
  show Except.ok (Journal.mk h.journal.text (greatest (issuedIds rs) + 1)) = _
  rw [hissued, hs.issued, greatest_firstIds, ← hs.nextId]

/-- Storable records that say nothing new about ids. -/
private theorem Sound.append {rs : List Record} {handed : List FoundBlock} (hs : h.Sound n)
    (hrs : ∀ r ∈ rs, r.IsStorable) (hissued : issuedIds rs = []) (hhanded : rs.filterMap Record.block? = handed) :
    Sound ⟨h.journal.append rs, h.issued, h.handed ++ handed⟩ n := by
  obtain ⟨old, hrecords, hold, hblocks⟩ := hs.records
  obtain ⟨hwhole, happend⟩ := records_append hs.whole hrecords hrs
  refine ⟨hwhole, ⟨_, happend, ?_, ?_⟩, hs.issued, hs.nextId⟩
  · rw [issuedIds_append, hissued, List.append_nil, hold]
  · rw [List.filterMap_append, hblocks, hhanded]

private theorem Sound.insertBlock {b : FoundBlock} (hs : h.Sound n) (hb : b.IsStorable) (hn : n + 1 < 2 ^ 63) :
    Sound ⟨{ h.journal.append [.foundBlock { b with id := h.journal.nextId }] with nextId := h.journal.nextId + 1 },
      h.issued ++ [h.journal.nextId], h.handed ++ [{ b with id := h.journal.nextId }]⟩ (n + 1) := by
  obtain ⟨old, hrecords, hold, hblocks⟩ := hs.records
  have hnext := hs.nextId
  have hstorable : ∀ r ∈ [Record.foundBlock { b with id := h.journal.nextId }], r.IsStorable := by
    intro r hr
    rw [List.mem_singleton.1 hr]
    exact ⟨⟨hb.networkDifficulty, hb.progress, hb.effort, hb.reward, hb.created⟩, by dsimp only; omega,
      by dsimp only; omega⟩
  obtain ⟨hwhole, happend⟩ := records_append hs.whole hrecords hstorable
  refine ⟨hwhole, ⟨_, happend, ?_, ?_⟩, ?_, ?_⟩
  · rw [issuedIds_append, hold]
    rfl
  · rw [List.filterMap_append, hblocks]
    rfl
  · rw [hs.issued, firstIds_succ, hnext]
  · rw [hnext]
    push_cast
    rfl

private theorem updateBlock_eq (j : Journal) (b : FoundBlock) : Store.updateBlock j b =
    if 0 < b.id ∧ b.id < j.nextId then (.ok (), j.append [.blockUpdate b])
    else (.error (.notUpdatable b.id), j) := rfl

private theorem Sound.step (hs : h.Sound n) (hc : c.IsStorable) (hn : n + 1 < 2 ^ 63) (hstep : h.step c = .ok h') :
    Sound h' (n + if c.isInsert then 1 else 0) := by
  cases c with
  | insertShares shares =>
    obtain rfl := Except.ok.inj hstep
    have hstorable : ∀ r ∈ shares.map Record.share, r.IsStorable := by
      intro r hr
      obtain ⟨s, hs, rfl⟩ := List.mem_map.1 hr
      exact hc s hs
    have hissued : issuedIds (shares.map Record.share) = [] := by simp [issuedIds]
    have hblocks : (shares.map Record.share).filterMap Record.block? = [] := by simp [Record.block?]
    have hsound := hs.append hstorable hissued hblocks
    rwa [List.append_nil] at hsound
  | insertBlock b =>
    obtain rfl := Except.ok.inj hstep
    exact hs.insertBlock hc hn
  | updateBlock b =>
    rw [History.step, updateBlock_eq] at hstep
    by_cases hid : 0 < b.id ∧ b.id < h.journal.nextId
    · rw [if_pos hid] at hstep
      obtain rfl := Except.ok.inj hstep
      have hnext := hs.nextId
      refine hs.append (fun r hr => ?_) rfl rfl
      rw [List.mem_singleton.1 hr]
      exact ⟨hc, by omega, by omega⟩
    · rw [if_neg hid] at hstep
      cases hstep
  | reopen =>
    rw [History.step, hs.ofText_text] at hstep
    obtain rfl := Except.ok.inj hstep
    exact hs

private theorem Sound.run {calls : List Call} (hs : h.Sound n) (hcalls : ∀ c ∈ calls, c.IsStorable)
    (hn : n + calls.countP Call.isInsert + 1 < 2 ^ 63) (hrun : calls.foldlM History.step h = .ok h') :
    ∃ n, Sound h' n := by
  induction calls generalizing h n with
  | nil =>
    obtain rfl := Except.ok.inj hrun
    exact ⟨n, hs⟩
  | cons c calls ih =>
    rw [List.foldlM_cons] at hrun
    rw [List.countP_cons] at hn
    rcases hstep : h.step c with e | next
    · rw [hstep] at hrun
      cases hrun
    · rw [hstep] at hrun
      exact ih (hs.step (hcalls c List.mem_cons_self) (by omega) hstep)
        (fun c hc => hcalls c (List.mem_cons_of_mem _ hc)) (by omega) hrun

theorem run_concat {calls : List Call} (hrun : run calls = .ok h) (c : Call) : run (calls ++ [c]) = h.step c := by
  have hsplit : run (calls ++ [c]) = run calls >>= fun h => [c].foldlM step h := by
    simp only [run, List.foldlM_append, bind_assoc]
  rw [hsplit, hrun]
  show (h.step c >>= fun h => .ok h) = _
  rcases h.step c with e | h'
  · rfl
  · rfl

private theorem start_eq : start = .ok ⟨⟨"", 1⟩, [], []⟩ := rfl

private theorem exists_sound {calls : List Call} (hcalls : ∀ c ∈ calls, c.IsStorable)
    (hn : calls.countP Call.isInsert + 1 < 2 ^ 63) (hrun : run calls = .ok h) : ∃ n, Sound h n := by
  have hs : Sound ⟨⟨"", 1⟩, [], []⟩ 0 := ⟨isWhole_empty, ⟨[], rfl, rfl, rfl⟩, rfl, rfl⟩
  rw [run, start_eq] at hrun
  exact hs.run hcalls (by omega) hrun

/-- Opening a journal again changes nothing. -/
theorem step_reopen {calls : List Call} (hcalls : ∀ c ∈ calls, c.IsStorable)
    (hn : calls.countP Call.isInsert + 1 < 2 ^ 63) (hrun : run calls = .ok h) : h.step .reopen = .ok h := by
  obtain ⟨n, hs⟩ := exists_sound hcalls hn hrun
  rw [step, hs.ofText_text]
  rfl

/-- After any calls that succeeded, ids have been given out in increasing order, a block can be replaced when
its id was given out, and the pending blocks of a pool are in id order those whose latest record is pending and
of this pool. -/
theorem table_of_run {calls : List Call} (hcalls : ∀ c ∈ calls, c.IsStorable)
    (hn : calls.countP Call.isInsert + 1 < 2 ^ 63) (hrun : run calls = .ok h) :
    h.issued.Pairwise (· < ·) ∧
      (∀ b, (∃ j, Store.updateBlock h.journal b = (.ok (), j)) ↔ b.id ∈ h.issued) ∧
      (∀ poolId, ∃ bs, Store.pendingBlocks h.journal poolId = (.ok bs, h.journal) ∧ bs.Pairwise (·.id < ·.id) ∧
        ∀ b, b ∈ bs ↔ latest? h.handed b.id = some b ∧ b.poolId = poolId ∧ b.status = .pending) ∧
      ofText h.journal.text = .ok h.journal := by
  obtain ⟨n, hs⟩ := exists_sound hcalls hn hrun
  refine ⟨hs.issued ▸ pairwise_firstIds n, fun b => ?_, fun poolId => ?_, hs.ofText_text⟩
  · rw [hs.issued, mem_firstIds, ← hs.nextId, updateBlock_eq]
    by_cases hid : 0 < b.id ∧ b.id < h.journal.nextId
    · rw [if_pos hid]
      exact ⟨fun _ => hid, fun _ => ⟨_, rfl⟩⟩
    · rw [if_neg hid]
      refine ⟨?_, fun h => absurd h hid⟩
      rintro ⟨j, hj⟩
      cases hj
  · obtain ⟨rs, hrecords, -, hblocks⟩ := hs.records
    obtain ⟨hsorted, hmem⟩ := foldl_put_spec h.handed
    refine ⟨(blocks rs).filter fun b => b.poolId = poolId ∧ b.status = .pending, ?_, ?_, fun b => ?_⟩
    · exact pendingBlocks_of_records hrecords poolId
    · rw [blocks, hblocks]
      exact hsorted.filter _
    · rw [List.mem_filter, blocks, hblocks, hmem, decide_eq_true_eq]

private theorem readsBack_zero : Json.ReadsBack 0 := by
  have hparts : Binary64.parts 0 = some ⟨false, 0, -1074, false⟩ := by decide +kernel
  have htext : Decimal.Layout.json.finite? 0 = some "0.0" := by
    rw [Decimal.Layout.finite?, hparts]
    rfl
  have hscale : Decimal.scale 0 (-1) = some 0 := by decide +kernel
  have hnumber : Json.number? "0.0".toList = some (Json.scaled? false 0 (-1), []) := rfl
  rw [Json.ReadsBack, Json.parse?_float, Json.rereadFloat, htext]
  show (Json.number? "0.0".toList).bind Prod.fst = _
  rw [hnumber, Option.bind_some, Json.scaled?, hscale]
  rfl

/-- A block is found and given up, the journal is opened again, and another block is found. -/
theorem table_of_run_sample :
    let b : FoundBlock := ⟨0, "scrypt", "litecoin", 7, 0, .pending, "Primary", 0, 0, "ab", "miner", 0, "cd", ⟨0, 0⟩⟩
    let orphan : FoundBlock := { b with id := 1, status := .orphaned }
    ∃ h, run [.insertBlock b, .updateBlock orphan, .reopen, .insertBlock b] = .ok h ∧ h.issued = [1, 2] ∧
      (∀ b, (∃ j, Store.updateBlock h.journal b = (.ok (), j)) ↔ b.id ∈ h.issued) ∧
      ∃ bs, Store.pendingBlocks h.journal "scrypt" = (.ok bs, h.journal) ∧ { b with id := 2 } ∈ bs ∧ orphan ∉ bs := by
  intro b orphan
  have hb : b.IsStorable := ⟨readsBack_zero, readsBack_zero, readsBack_zero, readsBack_zero, Timestamp.isValid_epoch⟩
  have horphan : orphan.IsStorable :=
    ⟨readsBack_zero, readsBack_zero, readsBack_zero, readsBack_zero, Timestamp.isValid_epoch⟩
  have hcalls : ∀ c ∈ [Call.insertBlock b, .updateBlock orphan, .reopen, .insertBlock b], c.IsStorable := by
    simp only [List.mem_cons, List.not_mem_nil, or_false]
    rintro c (rfl | rfl | rfl | rfl)
    · exact hb
    · exact horphan
    · trivial
    · exact hb
  obtain ⟨h, hfirst, hnext, hissued, hhanded⟩ : ∃ h, run [.insertBlock b, .updateBlock orphan] = .ok h ∧
      h.journal.nextId = 2 ∧ h.issued = [1] ∧ h.handed = [{ b with id := 1 }, orphan] := ⟨_, rfl, rfl, rfl, rfl⟩
  have hreopen := step_reopen (fun c hc => hcalls c (List.mem_append_left [.reopen, .insertBlock b] hc))
    (by decide) hfirst
  obtain ⟨h', hstep⟩ : ∃ h', h.step (.insertBlock b) = .ok h' ∧ h'.issued = h.issued ++ [h.journal.nextId] ∧
      h'.handed = h.handed ++ [{ b with id := h.journal.nextId }] := ⟨_, rfl, rfl, rfl⟩
  obtain ⟨hstep, hissued', hhanded'⟩ := hstep
  rw [hissued, hnext] at hissued'
  rw [hhanded, hnext] at hhanded'
  have hrun : run [.insertBlock b, .updateBlock orphan, .reopen, .insertBlock b] = .ok h' :=
    (run_concat ((run_concat hfirst _).trans hreopen) _).trans hstep
  obtain ⟨-, hupdate, hpending, -⟩ := table_of_run hcalls (by decide) hrun
  obtain ⟨bs, hbs, -, hmem⟩ := hpending "scrypt"
  refine ⟨h', hrun, hissued', hupdate, bs, hbs, (hmem _).2 ?_, fun h => ?_⟩
  · rw [hhanded']
    exact ⟨rfl, rfl, rfl⟩
  · cases ((hmem _).1 h).2.2

end History

end Journal

end MergedMining
