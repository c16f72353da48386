import Mathlib.Data.List.DropRight
import MergedMining.Login

/-!
# Logins as texts

What is read as a login is its addresses with dashes between them, a dot and the name of the rig; the dot may be
left out when the rig has no name, and white space around all of it does not count (`parse_eq_ok_iff`).  The
text of a login is read back as the same login unless it ends in white space, which was in front of a dot with
nothing behind it (`reads_back_iff`).
-/

namespace MergedMining

/-! ### White space around a text -/

namespace Blank

variable {cs : List Char}

/-- Whether a text neither begins nor ends with white space. -/
def IsTrimmed (cs : List Char) : Prop :=
  (∀ c ∈ cs.head?, isBlank c = false) ∧ ∀ c ∈ cs.getLast?, isBlank c = false

private theorem dropWhile_of_head? (h : ∀ c ∈ cs.head?, isBlank c = false) : cs.dropWhile isBlank = cs := by
  cases cs with
  | nil => rfl
  | cons c rest => exact List.dropWhile_cons_of_neg (by simp [h c rfl])

private theorem head?_dropWhile (cs : List Char) : ∀ c ∈ (cs.dropWhile isBlank).head?, isBlank c = false := by
  intro c hc
  simpa [Option.mem_def.1 hc] using List.head?_dropWhile_not isBlank cs

theorem mem_head?_of_begins {start : List Char} (h : start <+: cs) {c : Char} (hc : c ∈ start.head?) :
    c ∈ cs.head? := by
  obtain ⟨rest, rfl⟩ := h
  rw [List.head?_append, Option.mem_def.1 hc]
  rfl

theorem isTrimmed_trimChars (cs : List Char) : IsTrimmed (trimChars cs) := by
  constructor
  · intro c hc
    have hprefix : trimChars cs <+: cs.dropWhile isBlank := List.rdropWhile_prefix isBlank _
    exact head?_dropWhile cs c (mem_head?_of_begins hprefix hc)
  · intro c hc
    rw [trimChars, List.getLast?_reverse] at hc
    exact head?_dropWhile _ c hc

theorem mem_of_mem_trimChars {c : Char} (h : c ∈ trimChars cs) : c ∈ cs := by
  rw [trimChars, List.mem_reverse] at h
  have hreverse := (List.dropWhile_sublist isBlank).subset h
  exact (List.dropWhile_sublist isBlank).subset (List.mem_reverse.1 hreverse)

theorem trimChars_eq_self_iff : trimChars cs = cs ↔ IsTrimmed cs := by
  constructor
  · intro h
    exact h ▸ isTrimmed_trimChars cs
  · rintro ⟨hfirst, hlast⟩
    rw [← List.head?_reverse] at hlast
    rw [trimChars, dropWhile_of_head? hfirst, dropWhile_of_head? hlast, List.reverse_reverse]

end Blank

namespace Login

/-! ### Pieces -/

theorem pieces_eq_splitOn (separator : Char) (cs : List Char) : pieces separator cs = cs.splitOn separator := by
  induction cs with
  | nil => rfl
  | cons c cs ih =>
    rw [pieces, ih, List.splitOn_cons_eq_if_modifyHead]
    by_cases hc : c = separator
    · simp [hc]
    · have hne : (c == separator) = false := beq_eq_false_iff_ne.2 hc
      rw [if_neg hc, hne]
      cases h : cs.splitOn separator with
      | nil => exact absurd h (List.splitOn_ne_nil separator cs)
      | cons first rest => rfl

/-- A piece holds no separator, and nothing but what the text holds. -/
theorem of_mem_pieces {separator : Char} {cs piece : List Char} (h : piece ∈ pieces separator cs) :
    separator ∉ piece ∧ ∀ c ∈ piece, c ∈ cs := by
  induction cs generalizing piece with
  | nil =>
    obtain rfl : piece = [] := by simpa [pieces] using h
    simp
  | cons c cs ih =>
    unfold pieces at h
    by_cases hc : c = separator
    · rw [if_pos hc, List.mem_cons] at h
      rcases h with rfl | h
      · simp
      · exact ⟨(ih h).1, fun x hx => List.mem_cons_of_mem _ ((ih h).2 x hx)⟩
    · rw [if_neg hc] at h
      split at h
      · obtain rfl : piece = [c] := by simpa using h
        simpa using Ne.symm hc
      · next first rest hpieces =>
        rcases List.mem_cons.1 h with rfl | h
        · obtain ⟨hnot, hmem⟩ := ih (hpieces ▸ List.mem_cons_self)
          simp only [List.mem_cons, not_or]
          exact ⟨⟨Ne.symm hc, hnot⟩, fun x hx => hx.imp_right (hmem x)⟩
        · obtain ⟨hnot, hmem⟩ := ih (hpieces ▸ List.mem_cons_of_mem _ h)
          exact ⟨hnot, fun x hx => List.mem_cons_of_mem _ (hmem x hx)⟩

/-- A text is split at its first dot, if it has one. -/
theorem splitDot_eq_iff {cs front rig : List Char} :
    splitDot cs = (front, rig) ↔ '.' ∉ front ∧ (cs = front ∧ rig = [] ∨ cs = front ++ '.' :: rig) := by
  have hnot : '.' ∉ cs.takeWhile (· ≠ '.') := fun hmem => by simpa using List.mem_takeWhile_imp hmem
  have hjoin : cs.takeWhile (· ≠ '.') ++ cs.dropWhile (· ≠ '.') = cs := List.takeWhile_append_dropWhile
  have hhead := List.head?_dropWhile_not (· ≠ '.') cs
  unfold splitDot
  constructor
  · rintro ⟨⟩
    refine ⟨hnot, ?_⟩
    cases hbehind : cs.dropWhile (· ≠ '.') with
    | nil =>
      rw [hbehind, List.append_nil] at hjoin
      exact .inl ⟨hjoin.symm, rfl⟩
    | cons c rig =>
      obtain rfl : c = '.' := by
        rw [hbehind] at hhead
        simpa using hhead
      rw [hbehind] at hjoin
      exact .inr hjoin.symm
  · rintro ⟨hdot, hshape⟩
    have hall : ∀ c ∈ front, (decide (c ≠ '.')) = true := fun c hc => decide_eq_true fun heq => hdot (heq ▸ hc)
    rcases hshape with ⟨rfl, rfl⟩ | rfl
    · rw [List.takeWhile_eq_self_iff.2 hall, List.dropWhile_eq_nil_iff.2 hall]
      rfl
    · rw [List.takeWhile_append_of_pos hall, List.dropWhile_append_of_pos hall]
      simp

/-! ### Reading -/

/-- Addresses that can be told apart in a login: there is one, and none is empty or holds a dot or a dash. -/
structure AreWritable (addresses : List String) : Prop where
  ne_nil : addresses ≠ []
  ne_empty : ∀ a ∈ addresses, a ≠ ""
  no_dash : ∀ a ∈ addresses, '-' ∉ a.toList
  no_dot : ∀ a ∈ addresses, '.' ∉ a.toList

variable {s s' : String} {l l' : Login}

theorem pieces_miner (h : AreWritable l.addresses) : pieces '-' l.miner.toList = l.addresses.map String.toList := by
  have hdash : "-".toList = ['-'] := rfl
  rw [pieces_eq_splitOn, miner, String.toList_intercalate, hdash]
  refine List.splitOn_intercalate '-' (fun cs hcs => ?_) (by simpa using h.ne_nil)
  obtain ⟨a, ha, rfl⟩ := List.mem_map.1 hcs
  exact h.no_dash a ha

/-- Two lists of addresses have one text only if they are one. -/
theorem miner_inj (h : AreWritable l.addresses) (h' : AreWritable l'.addresses) :
    l.miner = l'.miner ↔ l.addresses = l'.addresses := by
  constructor
  · intro hminer
    have hpieces : l.addresses.map String.toList = l'.addresses.map String.toList := by
      rw [← pieces_miner h, ← pieces_miner h', hminer]
    exact List.map_injective_iff.2 (fun _ _ => String.toList_inj.1) hpieces
  · intro haddresses
    rw [miner, miner, haddresses]

theorem dot_notMem_miner (h : AreWritable l.addresses) : '.' ∉ l.miner.toList := by
  have hdots := h.no_dot
  rw [miner, String.toList_intercalate]
  generalize l.addresses = addresses at hdots
  induction addresses with
  | nil => simp
  | cons a addresses ih =>
    have hrest := ih fun b hb => hdots b (List.mem_cons_of_mem _ hb)
    have ha := hdots a List.mem_cons_self
    cases addresses with
    | nil => simpa using ha
    | cons b addresses =>
      rw [List.map_cons, List.map_cons, List.intercalate_cons_cons, ← List.map_cons]
      simp only [List.mem_append, not_or]
      exact ⟨⟨ha, by decide⟩, hrest⟩

/-- The pieces of a text without dots are addresses that can be written, if none of them is empty. -/
theorem areWritable_pieces {front : List Char} (hdot : '.' ∉ front) (hempty : [] ∉ pieces '-' front) :
    AreWritable ((pieces '-' front).map String.ofList) := by
  have hpieces : ∀ a ∈ (pieces '-' front).map String.ofList, a.toList ∈ pieces '-' front := by
    intro a ha
    obtain ⟨piece, hpiece, rfl⟩ := List.mem_map.1 ha
    rwa [String.toList_ofList]
  constructor
  · rw [pieces_eq_splitOn]
    simp [List.splitOn_ne_nil]
  · rintro a ha rfl
    exact hempty (hpieces "" ha)
  · intro a ha
    exact (of_mem_pieces (hpieces a ha)).1
  · intro a ha hmem
    exact hdot ((of_mem_pieces (hpieces a ha)).2 '.' hmem)

theorem miner_pieces (front rig : List Char) :
    (Login.mk ((pieces '-' front).map String.ofList) (String.ofList rig)).miner.toList = front := by
  have hid : String.toList ∘ String.ofList = id := funext fun cs => String.toList_ofList
  rw [miner, String.toList_intercalate, List.map_map, hid, List.map_id, pieces_eq_splitOn]
  exact List.intercalate_splitOn '-'

private theorem parse_eq_ok : parse s = .ok l ↔ ∃ front rig, splitDot (Blank.trimChars s.toList) = (front, rig) ∧
    [] ∉ pieces '-' front ∧ l = ⟨(pieces '-' front).map String.ofList, String.ofList rig⟩ := by
  unfold parse
  obtain ⟨⟨front, rig⟩, hsplit⟩ : ∃ split, splitDot (Blank.trimChars s.toList) = split := ⟨_, rfl⟩
  simp only [hsplit, Prod.mk.injEq]
  have hnone : (pieces '-' front).any List.isEmpty = true ↔ [] ∈ pieces '-' front := by
    simp [List.any_eq_true]
  constructor
  · intro h
    split at h
    · cases h
    split at h
    · cases h
    · next hany => exact ⟨front, rig, ⟨rfl, rfl⟩, hany ∘ hnone.2, (Except.ok.inj h).symm⟩
  · rintro ⟨_, _, ⟨rfl, rfl⟩, hempty, rfl⟩
    have hfront : ¬ front.isEmpty = true := by
      intro hfront
      obtain rfl := List.isEmpty_iff.1 hfront
      exact hempty List.mem_cons_self
    rw [if_neg hfront, if_neg (hempty ∘ hnone.1)]

/-- What is read as a login: its addresses with dashes between them, a dot and the name of the rig; without a
name also the addresses alone.  White space around it does not count. -/
theorem parse_eq_ok_iff : parse s = .ok l ↔ AreWritable l.addresses ∧
    (Blank.trimChars s.toList = l.miner.toList ∧ l.rig = "" ∨
      Blank.trimChars s.toList = l.miner.toList ++ '.' :: l.rig.toList) := by
  rw [parse_eq_ok]
  constructor
  · rintro ⟨front, rig, hsplit, hempty, rfl⟩
    obtain ⟨hdot, hshape⟩ := splitDot_eq_iff.1 hsplit
    refine ⟨areWritable_pieces hdot hempty, ?_⟩
    rw [miner_pieces, String.toList_ofList]
    exact hshape.imp_left fun h => ⟨h.1, by rw [h.2]⟩
  · rintro ⟨hwritable, hshape⟩
    refine ⟨l.miner.toList, l.rig.toList, splitDot_eq_iff.2 ⟨dot_notMem_miner hwritable, ?_⟩, ?_, ?_⟩
    · exact hshape.imp_left fun h => ⟨h.1, by rw [h.2]; rfl⟩
    · rw [pieces_miner hwritable]
      intro hmem
      obtain ⟨a, ha, hnil⟩ := List.mem_map.1 hmem
      exact hwritable.ne_empty a ha (String.toList_inj.1 hnil)
    · have hid : String.ofList ∘ String.toList = id := funext fun a => String.ofList_toList
      rw [pieces_miner hwritable, List.map_map, hid, List.map_id, String.ofList_toList]

/-! ### Writing -/

/-- A text without its first dot, when nothing follows it. -/
def withoutBareDot (text : List Char) : List Char :=
  if (splitDot text).2 = [] then (splitDot text).1 else text

theorem toList_toText (l : Login) :
    l.toText.toList = if l.rig = "" then l.miner.toList else l.miner.toList ++ '.' :: l.rig.toList := by
  unfold toText
  by_cases hrig : l.rig = ""
  · simp [hrig]
  · have hdot : ".".toList = ['.'] := rfl
    rw [if_neg hrig, if_neg (by simpa using hrig), String.toList_append, String.toList_append, hdot,
      List.append_assoc]
    rfl

/-- A login is written as it was read, but for white space around it and for a dot with nothing behind it. -/
theorem toText_of_parse (h : parse s = .ok l) : l.toText.toList = withoutBareDot (Blank.trimChars s.toList) := by
  obtain ⟨hwritable, hshape⟩ := parse_eq_ok_iff.1 h
  have hdot := dot_notMem_miner hwritable
  have hsplit : splitDot (Blank.trimChars s.toList) = (l.miner.toList, l.rig.toList) :=
    splitDot_eq_iff.2 ⟨hdot, hshape.imp_left fun h => ⟨h.1, by rw [h.2]; rfl⟩⟩
  have hnil : l.rig.toList = [] ↔ l.rig = "" := String.toList_eq_nil_iff
  rw [toList_toText, withoutBareDot, hsplit]
  simp only [hnil]
  by_cases hrig : l.rig = ""
  · rw [if_pos hrig, if_pos hrig]
  · rw [if_neg hrig, if_neg hrig]
    exact (hshape.resolve_left fun h => hrig h.2).symm

/-- The text of a login is read as this login, unless there is white space at an end of it. -/
theorem parse_toText_eq_ok_iff (h : AreWritable l.addresses) :
    parse l.toText = .ok l ↔ Blank.IsTrimmed l.toText.toList := by
  rw [parse_eq_ok_iff, ← Blank.trimChars_eq_self_iff, toList_toText, and_iff_right h]
  by_cases hrig : l.rig = ""
  · rw [if_pos hrig]
    constructor
    · rintro (⟨hminer, -⟩ | hminer)
      · exact hminer
      · -- the dot would have to be one of the addresses
        have hmem : '.' ∈ Blank.trimChars l.miner.toList := by simp [hminer]
        exact absurd (Blank.mem_of_mem_trimChars hmem) (dot_notMem_miner h)
    · intro hminer
      exact .inl ⟨hminer, hrig⟩
  · rw [if_neg hrig, or_iff_right fun h => hrig h.2]

theorem withoutBareDot_begins (text : List Char) : withoutBareDot text <+: text := by
  unfold withoutBareDot
  split
  · exact List.takeWhile_prefix _
  · exact List.prefix_refl _

/-- A login is written as it was read, but for white space around it and for a dot with nothing behind it.  The
text is read as the same login, unless it ends in white space.  Two logins that were read have one text of all
addresses only if they have the same addresses. -/
theorem reads_back_iff {s : String} {l : Login} (h : parse s = .ok l) :
    l.toText.toList = withoutBareDot (Blank.trimChars s.toList) ∧
    (parse l.toText = .ok l ↔ ∀ c ∈ l.toText.toList.getLast?, Blank.isBlank c = false) ∧
    ∀ s' l', parse s' = .ok l' → (l.miner = l'.miner ↔ l.addresses = l'.addresses) := by
  have hwritable := (parse_eq_ok_iff.1 h).1
  refine ⟨toText_of_parse h, ?_, fun s' l' h' => miner_inj hwritable (parse_eq_ok_iff.1 h').1⟩
  rw [parse_toText_eq_ok_iff hwritable]
  -- in front there is none, because the text begins as what was read
  refine and_iff_right fun c hc => (Blank.isTrimmed_trimChars s.toList).1 c ?_
  rw [toText_of_parse h] at hc
  exact Blank.mem_head?_of_begins (withoutBareDot_begins _) hc

theorem reads_back_iff_sample : parse " a-b .rig1 " = .ok ⟨["a", "b "], "rig1"⟩ ∧
    (Login.mk ["a", "b "] "rig1").toText = "a-b .rig1" ∧ parse "a-b .rig1" = .ok ⟨["a", "b "], "rig1"⟩ := by
  have h : parse " a-b .rig1 " = .ok ⟨["a", "b "], "rig1"⟩ := by decide +kernel
  have htext : (Login.mk ["a", "b "] "rig1").toText = "a-b .rig1" := by decide +kernel
  have hlast : "a-b .rig1".toList.getLast? = some '1' := by decide +kernel
  have hback := (reads_back_iff h).2.1.2 (by rw [htext, hlast]; rintro _ ⟨⟩; rfl)
  exact ⟨h, htext, htext ▸ hback⟩

/-- White space in front of a dot with nothing behind it is at the end once the dot is gone, and is not read
again; an address of nothing else is no longer one. -/
theorem not_reads_back : ¬ ∀ s l, parse s = .ok l → parse l.toText = .ok l := by
  intro hall
  have h : parse "a- ." = .ok ⟨["a", " "], ""⟩ := by decide +kernel
  have hback : parse (Login.mk ["a", " "] "").toText = .error (.emptyAddress "a-") := by decide +kernel
  cases (hall _ _ h).symm.trans hback

end Login

end MergedMining
