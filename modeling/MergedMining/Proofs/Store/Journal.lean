import MergedMining.Proofs.Store.Record

/-!
# What was appended is read

The line of a record is one line of the text and not blank, so a record behind whole lines is read behind what
they are read as (`records_append_line`), and storable records are read as they are (`records_append`).  One
record that cannot be read keeps the whole text from being read (`exists_records_append_iff`).
-/

namespace MergedMining

/-- A record whose line can be read, whatever its doubles are read as. -/
def Record.IsReadable (r : Record) : Prop := ∃ r', Record.parse? r.toJson.compact = some r'

namespace Journal

variable {text : String} {cs rest : List Char}

/-! ### Lines -/

/-- A text of whole lines. -/
def IsWhole (text : String) : Prop := ∀ c ∈ text.toList.getLast?, c = '\n'

theorem isWhole_empty : IsWhole "" := nofun

private theorem lines_cons {c d : Char} (hc : c ≠ '\n') {first : List Char} {others : List (List Char)}
    (h : lines (d :: cs) = first :: others) : lines (c :: d :: cs) =
      (if d = '\n' then if c = '\r' then [] else [c] else c :: first) :: others := by
  rw [lines, if_neg hc, h]
  by_cases hd : d = '\n'
  · rw [if_pos hd]
    exact if_pos (congrArg some hd)
  · rw [if_neg hd]
    exact if_neg fun heq => hd (Option.some.inj heq)

theorem lines_append (h : ∀ c ∈ cs.getLast?, c = '\n') (rest : List Char) :
    lines (cs ++ rest) = lines cs ++ lines rest := by
  induction cs with
  | nil => rfl
  | cons c cs ih =>
    by_cases hline : c = '\n'
    · subst hline
      have htail : ∀ c ∈ cs.getLast?, c = '\n' := by
        rcases cs with _ | ⟨d, ds⟩
        · nofun
        · rwa [List.getLast?_cons_cons] at h
      have hcons (cs : List Char) : lines ('\n' :: cs) = [] :: lines cs := by rw [lines, if_pos rfl]
      rw [List.cons_append, hcons, hcons, ih htail, List.cons_append]
    · obtain ⟨d, ds, rfl⟩ : ∃ d ds, cs = d :: ds := by
        rcases cs with _ | ⟨d, ds⟩
        · exact absurd (h c rfl) hline
        · exact ⟨d, ds, rfl⟩
      rw [List.getLast?_cons_cons] at h
      have hfirst : ∃ first others, lines (d :: ds) = first :: others := by
        rw [lines]
        split
        · exact ⟨_, _, rfl⟩
        · split
          · exact ⟨_, _, rfl⟩
          · split
            · exact ⟨_, _, rfl⟩
            · exact ⟨_, _, rfl⟩
      obtain ⟨first, others, hfirst⟩ := hfirst
      have hmore := ih h
      rw [hfirst, List.cons_append, List.cons_append] at hmore
      rw [List.cons_append, List.cons_append, lines_cons hline hmore, lines_cons hline hfirst, List.cons_append]

private theorem lines_line (h : '\n' ∉ cs) (hlast : ∀ c ∈ cs.getLast?, c ≠ '\r') : lines (cs ++ ['\n']) = [cs] := by
  induction cs with
  | nil => rfl
  | cons c cs ih =>
    obtain ⟨hc, hcs⟩ := not_or.1 (List.mem_cons.not.1 h)
    rcases cs with _ | ⟨d, ds⟩
    · have hreturn : c ≠ '\r' := hlast c rfl
      rw [List.cons_append, lines, if_neg (Ne.symm hc)]
      show [if c = '\r' then [] else [c]] = _
      rw [if_neg hreturn]
    · rw [List.getLast?_cons_cons] at hlast
      have hd : d ≠ '\n' := fun heq => hcs (heq ▸ List.mem_cons_self)
      have hmore := ih hcs hlast
      rw [List.cons_append] at hmore
      rw [List.cons_append, List.cons_append, lines_cons (Ne.symm hc) hmore, if_neg hd]

/-! ### Records -/

/-- The lines behind others are read when those could be read. -/
theorem readLines_append (number : Nat) (xs ys : List (List Char)) : readLines number (xs ++ ys) =
    (readLines number xs).bind fun rs => (readLines (number + xs.length) ys).map (rs ++ ·) := by
  induction xs generalizing number with
  | nil =>
    show readLines number ys = (readLines number ys).map ([] ++ ·)
    rcases readLines number ys with e | rs
    · rfl
    · rfl
  | cons line xs ih =>
    rw [List.cons_append, readLines, readLines, List.length_cons,
      show number + (xs.length + 1) = number + 1 + xs.length by omega]
    split
    · exact ih (number + 1)
    · rcases Record.parse? (String.ofList line) with _ | r
      · rfl
      · dsimp only
        rw [ih]
        rcases readLines (number + 1) xs with e | rs
        · rfl
        · rcases readLines (number + 1 + xs.length) ys with e | rs'
          · rfl
          · rfl

/-- The text of a record stands between braces. -/
private theorem exists_compact_eq (r : Record) : ∃ cs, r.toJson.compact.toList = '\x7b' :: (cs ++ ['\x7d']) := by
  obtain ⟨ms, hms⟩ : ∃ ms, r.toJson = .obj ms := by
    cases r with
    | share s => exact ⟨_, rfl⟩
    | foundBlock b => exact ⟨_, rfl⟩
    | blockUpdate b => exact ⟨_, rfl⟩
  refine ⟨(Json.compactMembers ms).toList, ?_⟩
  rw [hms, Json.compact]
  simp

private theorem toList_toLine (r : Record) : r.toLine.toList = r.toJson.compact.toList ++ ['\n'] :=
  String.toList_append

private theorem lines_toLine (r : Record) : lines r.toLine.toList = [r.toJson.compact.toList] := by
  obtain ⟨cs, hcs⟩ := exists_compact_eq r
  rw [toList_toLine]
  refine lines_line (Json.newLine_notMem_compact _) fun c hc => ?_
  rw [hcs, ← List.cons_append, List.getLast?_concat] at hc
  rw [← Option.some.inj hc]
  decide

private theorem readLines_toLine (r : Record) (number : Nat) : readLines number (lines r.toLine.toList) =
    match Record.parse? r.toJson.compact with
    | none => .error (.malformed number)
    | some r => .ok [r] := by
  have hblank : ¬ r.toJson.compact.toList.all Blank.isBlank = true := by
    obtain ⟨cs, hcs⟩ := exists_compact_eq r
    rw [hcs, List.all_cons]
    simp [show Blank.isBlank '\x7b' = false from rfl]
  rw [lines_toLine, readLines, if_neg hblank, String.ofList_toList]
  rcases Record.parse? r.toJson.compact with _ | r
  · rfl
  · rfl

/-- A record behind whole lines is read behind what they are read as, or makes the text unreadable. -/
theorem records_append_line {old : List Record} (hwhole : IsWhole text) (hold : records text = .ok old) (r : Record) :
    records (text ++ r.toLine) =
      match Record.parse? r.toJson.compact with
      | none => .error (.malformed ((lines text.toList).length + 1))
      | some r => .ok (old ++ [r]) := by
  unfold records at hold ⊢
  rw [String.toList_append, lines_append hwhole, readLines_append, hold, readLines_toLine, Nat.add_comm 1]
  rcases Record.parse? r.toJson.compact with _ | r
  · rfl
  · rfl

theorem isWhole_append_line (text : String) (r : Record) : IsWhole (text ++ r.toLine) := by
  intro c hc
  rw [String.toList_append, toList_toLine, ← List.append_assoc, List.getLast?_concat] at hc
  exact (Option.some.inj hc).symm

/-- Storable records are read as they are. -/
theorem records_append {old rs : List Record} (hwhole : IsWhole text) (hold : records text = .ok old)
    (h : ∀ r ∈ rs, r.IsStorable) : IsWhole (text ++ String.join (rs.map Record.toLine)) ∧
      records (text ++ String.join (rs.map Record.toLine)) = .ok (old ++ rs) := by
  induction rs generalizing text old with
  | nil =>
    rw [List.map_nil, List.append_nil, String.join_nil, String.append_empty]
    exact ⟨hwhole, hold⟩
  | cons r rs ih =>
    have hline := records_append_line hwhole hold r
    rw [Record.parse?_of_isStorable (h r List.mem_cons_self)] at hline
    have hrest := ih (isWhole_append_line text r) hline fun r' hr' => h r' (List.mem_cons_of_mem _ hr')
    rw [List.append_assoc, List.singleton_append] at hrest
    rwa [List.map_cons, String.join_cons, ← String.append_assoc]

theorem records_append_of_error {e : StoreFault} (hwhole : IsWhole text) (h : records text = .error e)
    (more : String) :
    records (text ++ more) = .error e := by
  unfold records at h ⊢
  rw [String.toList_append, lines_append hwhole, readLines_append, h]
  rfl

/-- Records behind whole lines can be read when each of them can. -/
theorem exists_records_append_iff {old : List Record} (hwhole : IsWhole text) (hold : records text = .ok old)
    (rs : List Record) :
    (∃ all, records (text ++ String.join (rs.map Record.toLine)) = .ok all) ↔ ∀ r ∈ rs, r.IsReadable := by
  induction rs generalizing text old with
  | nil =>
    rw [List.map_nil, String.join_nil, String.append_empty]
    exact ⟨fun _ _ hr => absurd hr List.not_mem_nil, fun _ => ⟨old, hold⟩⟩
  | cons r rs ih =>
    have hline := records_append_line hwhole hold r
    have hwhole' := isWhole_append_line text r
    rw [List.map_cons, String.join_cons, ← String.append_assoc, List.forall_mem_cons]
    rcases hr : Record.parse? r.toJson.compact with _ | r'
    · rw [hr] at hline
      rw [records_append_of_error hwhole' hline]
      constructor
      · rintro ⟨all, h⟩
        cases h
      · rintro ⟨⟨r', h⟩, -⟩
        rw [hr] at h
        cases h
    · rw [hr] at hline
      rw [ih hwhole' hline]
      exact ⟨fun h => ⟨⟨r', hr⟩, h⟩, fun h => h.2⟩

theorem exists_pendingBlocks_iff {j : Journal} {poolId : String} :
    (∃ bs, Store.pendingBlocks j poolId = (.ok bs, j)) ↔ ∃ all, records j.text = .ok all := by
  rcases h : records j.text with e | all
  · simp [Store.pendingBlocks, h]
  · simp [Store.pendingBlocks, h]

theorem exists_ofText_iff : (∃ j, ofText text = .ok j) ↔ ∃ all, records text = .ok all := by
  rcases h : records text with e | all
  · simp [ofText, h, Except.map]
  · simp [ofText, h, Except.map]

theorem pendingBlocks_of_records {j : Journal} {rs : List Record} (h : records j.text = .ok rs) (poolId : String) :
    Store.pendingBlocks j poolId =
      (.ok ((blocks rs).filter fun b => b.poolId = poolId ∧ b.status = .pending), j) := by
  simp only [Store.pendingBlocks, h]

end Journal

end MergedMining
