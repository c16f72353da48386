import MergedMining.Proofs.Json.Numbers
import MergedMining.Proofs.Json.Strings

/-!
# What is written is read

The text of a value is a well-formed document (`parse?_compact`), on one line (`newLine_notMem_compact`).  All but the
doubles are read as they were written; a double is read as what its digits amount to.
-/

namespace MergedMining

namespace Json

/-- What a double is read as: null when it is no finite number. -/
def rereadFloat (x : Float) : Option Json :=
  match Decimal.Layout.json.finite? x with
  | some text => (number? text.toList).bind Prod.fst
  | none => some .null

mutual

/-- The document that a value is written as. -/
def document : Json → Document
  | .float x => .leaf (rereadFloat x)
  | .arr items => .arr (documents items)
  | .obj members => .obj (memberDocuments members)
  | v => .leaf (some v)

/-- The documents of items. -/
def documents : List Json → List Document
  | [] => []
  | v :: vs => v.document :: documents vs

/-- The documents of members. -/
def memberDocuments : List (String × Json) → List (Option String × Document)
  | [] => []
  | (k, v) :: rest => (some k, v.document) :: memberDocuments rest

/-- All whole numbers in a value have 64 bits. -/
def Ranged : Json → Prop
  | .int n => InRange n
  | .arr items => RangedItems items
  | .obj members => RangedMembers members
  | _ => True

/-- All whole numbers in the items have 64 bits. -/
def RangedItems : List Json → Prop
  | [] => True
  | v :: vs => v.Ranged ∧ RangedItems vs

/-- All whole numbers in the members have 64 bits. -/
def RangedMembers : List (String × Json) → Prop
  | [] => True
  | (_, v) :: rest => v.Ranged ∧ RangedMembers rest

end

/-! ### The first character -/

private theorem head_of_number? {cs : List Char} {r : Option Json × List Char} (h : number? cs = some r) :
    ∃ c tail, cs = c :: tail ∧ (c = '-' ∨ c.isDigit = true) := by
  rcases cs with _ | ⟨c, tail⟩
  · cases h
  · refine ⟨c, tail, rfl, ?_⟩
    by_cases hminus : c = '-'
    · exact .inl hminus
    · refine .inr ?_
      rw [number?_of_head fun d hd => by rwa [← Option.some.inj hd]] at h
      by_contra hdigit
      have hno : ¬ isDigit c = true := by rwa [isDigit_eq]
      unfold unsigned? at h
      split at h
      · next heq => cases heq; exact hdigit rfl
      · next heq => cases heq; exact hdigit rfl
      · next heq =>
        cases heq
        rw [if_neg hno] at h
        cases h
      · next heq => cases heq

/-- A finite double is read as a significand with a power of ten that is not far above its magnitude. -/
theorem exists_rereadFloat_eq {x : Float} {p : Binary64.Parts} (h : Binary64.parts x = some p) :
    ∃ (s : Nat) (e : Int), s < 10 ^ 18 ∧
      (e ≤ 0 ∨ e ≤ Decimal.magnitude (Decimal.Interval.ofParts p).value (Decimal.Interval.ofParts p).den + 18) ∧
      rereadFloat x = scaled? p.negative s e ∧
      ∀ rest, Ends rest → number? ((renderFloat x).toList ++ rest) = some (rereadFloat x, rest) := by
  obtain ⟨s, e, hs, he, hread⟩ := exists_number?_float h
  obtain ⟨text, hfinite⟩ : ∃ text, Decimal.Layout.json.finite? x = some text :=
    ⟨_, by rw [Decimal.Layout.finite?, h]; rfl⟩
  have hrender : renderFloat x = text := by rw [renderFloat, hfinite, Option.getD_some]
  have halone := hread [] ends_nil
  rw [List.append_nil, hrender] at halone
  have hreread : rereadFloat x = scaled? p.negative s e := by
    rw [rereadFloat, hfinite]
    show (number? text.toList).bind Prod.fst = _
    rw [halone]
    rfl
  exact ⟨s, e, hs, he, hreread, fun rest hrest => by rw [hread rest hrest, hreread]⟩

private theorem number?_renderFloat {x : Float} {p : Binary64.Parts} (h : Binary64.parts x = some p)
    {rest : List Char} (hrest : Ends rest) :
    number? ((renderFloat x).toList ++ rest) = some (rereadFloat x, rest) := by
  obtain ⟨s, e, -, -, -, hread⟩ := exists_rereadFloat_eq h
  exact hread rest hrest

/-- What is no finite number is read as null. -/
theorem rereadFloat_of_none {x : Float} (h : Binary64.parts x = none) : rereadFloat x = some .null := by
  rw [rereadFloat, Decimal.Layout.finite?, h]
  rfl

private theorem exists_compact_eq_cons {v : Json} (h : v.Ranged) :
    ∃ c cs, (compact v).toList = c :: cs ∧ isSpace c = false ∧ c ≠ ']' := by
  have hnumber {cs : List Char} {r : Option Json × List Char} (h : number? (cs ++ []) = some r) :
      ∃ c tail, cs = c :: tail ∧ isSpace c = false ∧ c ≠ ']' := by
    rw [List.append_nil] at h
    obtain ⟨c, tail, hcs, hc⟩ := head_of_number? h
    refine ⟨c, tail, hcs, ?_, ?_⟩
    · rw [isSpace, decide_eq_false_iff_not]
      rintro (rfl | rfl | rfl | rfl) <;> simp at hc
    · rintro rfl
      simp at hc
  cases v with
  | null => exact ⟨'n', _, rfl, rfl, by decide⟩
  | bool b =>
    cases b with
    | true => exact ⟨'t', _, rfl, rfl, by decide⟩
    | false => exact ⟨'f', _, rfl, rfl, by decide⟩
  | int n => exact hnumber (number?_int h ends_nil)
  | float x =>
    rcases hparts : Binary64.parts x with _ | p
    · rw [compact, renderFloat_of_none hparts]
      exact ⟨'n', _, rfl, rfl, by decide⟩
    · exact hnumber (number?_renderFloat hparts ends_nil)
  | str s => exact ⟨'"', _, by simp [compact, quote]; rfl, rfl, by decide⟩
  | arr items => exact ⟨'[', _, by simp [compact]; rfl, rfl, by decide⟩
  | obj members => exact ⟨'\x7b', _, by simp [compact]; rfl, rfl, by decide⟩

/-! ### Documents -/

private theorem document?_number {cs rest : List Char} {v : Option Json} (h : number? cs = some (v, rest))
    (fuel : Nat) :
    document? (fuel + 1) cs = some (.leaf v, rest) := by
  obtain ⟨c, tail, rfl, hc⟩ := head_of_number? h
  have hspace : isSpace c = false := by
    rw [isSpace, decide_eq_false_iff_not]
    rintro (rfl | rfl | rfl | rfl) <;> simp at hc
  have hskip : skipSpace (c :: tail) = c :: tail := List.dropWhile_cons_of_neg (by simp [hspace])
  unfold document?
  rw [hskip]
  split
  all_goals first
    | rw [h]; rfl
    | next heq => cases heq; simp at hc

private theorem document?_float (x : Float) {rest : List Char} (hrest : Ends rest) (fuel : Nat) :
    document? (fuel + 1) ((renderFloat x).toList ++ rest) = some (.leaf (rereadFloat x), rest) := by
  rcases hparts : Binary64.parts x with _ | p
  · rw [renderFloat_of_none hparts, rereadFloat_of_none hparts]
    rfl
  · exact document?_number (number?_renderFloat hparts hrest) fuel

private theorem skipSpace_cons {c : Char} (h : isSpace c = false) (cs : List Char) : skipSpace (c :: cs) = c :: cs :=
  List.dropWhile_cons_of_neg (by simp [h])

private theorem document?_arr {c : Char} {cs rest : List Char} {fuel : Nat} {ds : List Document}
    (hspace : isSpace c = false) (hc : c ≠ ']') (h : items? fuel (c :: cs) [] = some (ds, rest)) :
    document? (fuel + 1) ('[' :: c :: cs) = some (.arr ds, rest) := by
  have hbracket : skipSpace ('[' :: c :: cs) = '[' :: c :: cs := rfl
  rw [document?, hbracket]
  simp only [skipSpace_cons hspace]
  split
  · next heq => exact absurd (List.cons.inj heq).1 hc
  · rw [h]
    rfl

private theorem document?_obj {cs rest : List Char} {fuel : Nat} {ds : List (Option String × Document)}
    (h : members? fuel ('"' :: cs) [] = some (ds, rest)) :
    document? (fuel + 1) ('\x7b' :: '"' :: cs) = some (.obj ds, rest) := by
  show (members? fuel ('"' :: cs) []).map (fun read => (Document.obj read.1, read.2)) = _
  rw [h]
  rfl

private theorem items?_cons {cs rest : List Char} {fuel : Nat} {d : Document}
    (h : document? fuel cs = some (d, ',' :: rest)) (acc : List Document) :
    items? (fuel + 1) cs acc = items? fuel rest (d :: acc) := by
  rw [items?, h]
  rfl

private theorem items?_last {cs rest : List Char} {fuel : Nat} {d : Document}
    (h : document? fuel cs = some (d, ']' :: rest)) (acc : List Document) :
    items? (fuel + 1) cs acc = some ((d :: acc).reverse, rest) := by
  rw [items?, h]
  rfl

private theorem members?_quote (k : String) (cs : List Char) (fuel : Nat) (acc : List (Option String × Document)) :
    members? (fuel + 1) ((quote k).toList ++ ':' :: cs) acc =
      match document? fuel cs with
      | none => none
      | some (value, rest) =>
        match skipSpace rest with
        | ',' :: rest => members? fuel rest ((some k, value) :: acc)
        | '\x7d' :: rest => some (((some k, value) :: acc).reverse, rest)
        | _ => none := by
  have hskip (cs : List Char) : skipSpace ('"' :: cs) = '"' :: cs := rfl
  rw [toList_quote, members?, hskip]
  simp only [string?_quote]
  rfl

private theorem members?_cons {cs rest : List Char} {fuel : Nat} {d : Document}
    (h : document? fuel cs = some (d, ',' :: rest)) (k : String) (acc : List (Option String × Document)) :
    members? (fuel + 1) ((quote k).toList ++ ':' :: cs) acc = members? fuel rest ((some k, d) :: acc) := by
  rw [members?_quote, h]
  rfl

private theorem members?_last {cs rest : List Char} {fuel : Nat} {d : Document}
    (h : document? fuel cs = some (d, '\x7d' :: rest)) (k : String) (acc : List (Option String × Document)) :
    members? (fuel + 1) ((quote k).toList ++ ':' :: cs) acc = some (((some k, d) :: acc).reverse, rest) := by
  rw [members?_quote, h]
  rfl

/-- With this much fuel every value is read from its text. -/
private def Reads (fuel : Nat) : Prop :=
  ∀ (v : Json) (rest : List Char), v.Ranged → Ends rest → 2 * (compact v).toList.length < fuel →
    document? fuel ((compact v).toList ++ rest) = some (v.document, rest)

/-- With this much fuel all items are read from their text. -/
private def ReadsItems (fuel : Nat) : Prop :=
  ∀ (v : Json) (vs : List Json) (rest : List Char) (acc : List Document), RangedItems (v :: vs) →
    2 * (compactItems (v :: vs)).toList.length + 1 < fuel →
    items? fuel ((compactItems (v :: vs)).toList ++ ']' :: rest) acc = some (acc.reverse ++ documents (v :: vs), rest)

/-- With this much fuel all members are read from their text. -/
private def ReadsMembers (fuel : Nat) : Prop :=
  ∀ (k : String) (v : Json) (ms : List (String × Json)) (rest : List Char) (acc : List (Option String × Document)),
    RangedMembers ((k, v) :: ms) → 2 * (compactMembers ((k, v) :: ms)).toList.length + 1 < fuel →
    members? fuel ((compactMembers ((k, v) :: ms)).toList ++ '\x7d' :: rest) acc =
      some (acc.reverse ++ memberDocuments ((k, v) :: ms), rest)

private theorem readsItems_succ {fuel : Nat} (hvalue : Reads fuel) (hitems : ReadsItems fuel) :
    ReadsItems (fuel + 1) := by
  intro v vs rest acc h hfuel
  rcases vs with _ | ⟨w, vs⟩
  · rw [compactItems] at hfuel ⊢
    rw [items?_last (hvalue v _ h.1 (ends_cons (by decide) _) (by omega)), List.reverse_cons]
    rfl
  · have htext : (compactItems (v :: w :: vs)).toList =
        (compact v).toList ++ ',' :: (compactItems (w :: vs)).toList := by
      simp [compactItems]
    rw [htext, List.length_append, List.length_cons] at hfuel
    rw [htext, List.append_assoc, List.cons_append,
      items?_cons (hvalue v _ h.1 (ends_cons (by decide) _) (by omega)), hitems w vs rest _ h.2 (by omega),
      List.reverse_cons, List.append_assoc]
    rfl

private theorem readsMembers_succ {fuel : Nat} (hvalue : Reads fuel) (hmembers : ReadsMembers fuel) :
    ReadsMembers (fuel + 1) := by
  intro k v ms rest acc h hfuel
  rcases ms with _ | ⟨⟨k', w⟩, ms⟩
  · have htext : (compactMembers [(k, v)]).toList = (quote k).toList ++ ':' :: (compact v).toList := by
      simp [compactMembers]
    rw [htext, List.length_append, List.length_cons] at hfuel
    rw [htext, List.append_assoc, List.cons_append,
      members?_last (hvalue v _ h.1 (ends_cons (by decide) _) (by omega)), List.reverse_cons]
    rfl
  · have htext : (compactMembers ((k, v) :: (k', w) :: ms)).toList =
        (quote k).toList ++ ':' :: ((compact v).toList ++ ',' :: (compactMembers ((k', w) :: ms)).toList) := by
      simp [compactMembers]
    rw [htext, List.length_append, List.length_cons, List.length_append, List.length_cons] at hfuel
    rw [htext, List.append_assoc, List.cons_append, List.append_assoc, List.cons_append,
      members?_cons (hvalue v _ h.1 (ends_cons (by decide) _) (by omega)), hmembers k' w ms rest _ h.2 (by omega),
      List.reverse_cons, List.append_assoc]
    rfl

private theorem reads_succ {fuel : Nat} (hitems : ReadsItems fuel) (hmembers : ReadsMembers fuel) :
    Reads (fuel + 1) := by
  intro v rest h hrest hfuel
  cases v with
  | null => rfl
  | bool b =>
    cases b with
    | true => rfl
    | false => rfl
  | int n => exact document?_number (number?_int h hrest) fuel
  | float x => exact document?_float x hrest fuel
  | str s =>
    rw [compact, toList_quote]
    show (string? (s.toList.flatMap escapeChar ++ '"' :: rest)).map _ = _
    rw [string?_quote]
    rfl
  | arr items =>
    rcases items with _ | ⟨v, vs⟩
    · rfl
    · have htext : (compact (.arr (v :: vs))).toList = '[' :: ((compactItems (v :: vs)).toList ++ [']']) := by
        simp [compact]
      have hlength := congrArg List.length htext
      rw [List.length_cons, List.length_append] at hlength
      have hread := hitems v vs rest [] h (by omega)
      obtain ⟨c, cs, hcs, hspace, hc⟩ :
          ∃ c cs, (compactItems (v :: vs)).toList = c :: cs ∧ isSpace c = false ∧ c ≠ ']' := by
        obtain ⟨c, cs, hcs, hc⟩ := exists_compact_eq_cons h.1
        rcases vs with _ | ⟨w, vs⟩
        · exact ⟨c, cs, hcs, hc⟩
        · exact ⟨c, cs ++ ',' :: (compactItems (w :: vs)).toList, by simp [compactItems, hcs], hc⟩
      rw [htext, List.cons_append, List.append_assoc]
      rw [hcs] at hread ⊢
      exact document?_arr hspace hc hread
  | obj members =>
    rcases members with _ | ⟨⟨k, v⟩, ms⟩
    · rfl
    · have htext : (compact (.obj ((k, v) :: ms))).toList =
          '\x7b' :: ((compactMembers ((k, v) :: ms)).toList ++ ['\x7d']) := by
        simp [compact]
      have hlength := congrArg List.length htext
      rw [List.length_cons, List.length_append] at hlength
      have hread := hmembers k v ms rest [] h (by omega)
      obtain ⟨cs, hcs⟩ : ∃ cs, (compactMembers ((k, v) :: ms)).toList = '"' :: cs := by
        rcases ms with _ | ⟨⟨k', w⟩, ms⟩
        · exact ⟨_, by simp [compactMembers, quote]; rfl⟩
        · exact ⟨_, by simp [compactMembers, quote]; rfl⟩
      rw [htext, List.cons_append, List.append_assoc]
      rw [hcs] at hread ⊢
      exact document?_obj hread

private theorem reads (fuel : Nat) : Reads fuel ∧ ReadsItems fuel ∧ ReadsMembers fuel := by
  induction fuel with
  | zero => exact ⟨fun _ _ _ _ h => by omega, fun _ _ _ _ _ h => by omega, fun _ _ _ _ _ _ h => by omega⟩
  | succ fuel ih =>
    obtain ⟨hvalue, hitems, hmembers⟩ := ih
    exact ⟨reads_succ hitems hmembers, readsItems_succ hvalue hitems, readsMembers_succ hvalue hmembers⟩

/-- The text of a value is a document. -/
theorem parse?_compact {v : Json} (h : v.Ranged) : Document.parse? (compact v) = some v.document := by
  have hread := (reads (2 * (compact v).toList.length + 2)).1 v [] h ends_nil (by omega)
  rw [List.append_nil] at hread
  unfold Document.parse?
  dsimp only
  rw [hread]
  rfl

/-- A double alone is read as its digits say. -/
theorem parse?_float (x : Float) : parse? (compact (.float x)) = rereadFloat x := by
  rw [parse?, parse?_compact (v := .float x) trivial]
  rfl

/-- A double that is read as it is written. -/
def ReadsBack (x : Float) : Prop := parse? (compact (.float x)) = some (.float x)

theorem rereadFloat_of_readsBack {x : Float} (h : ReadsBack x) : rereadFloat x = some (.float x) :=
  (parse?_float x).symm.trans h

/-! ### One line -/

private theorem ne_newLine_of_isDigit {c : Char} (h : c.isDigit = true) : c ≠ '\n' := by
  rintro rfl
  cases h

private theorem newLine_notMem_escapeChar (c : Char) : '\n' ∉ escapeChar c := by
  have hlow : ∀ n < 0x20, '\n' ∉ '\\' :: 'u' :: '0' :: '0' :: [Char.ofNat ('0'.toNat + n / 16),
      if n % 16 < 10 then Char.ofNat ('0'.toNat + n % 16) else Char.ofNat ('a'.toNat + n % 16 - 10)] := by
    decide
  unfold escapeChar
  split
  · decide
  split
  · decide
  split
  · decide
  split
  · decide
  split
  · decide
  split
  · decide
  split
  · decide
  split
  · next hc => exact hlow _ hc
  · next hline _ _ _ => exact fun hmem => hline (List.mem_singleton.1 hmem).symm

private theorem newLine_notMem_quote (s : String) : '\n' ∉ (quote s).toList := by
  rw [quote, String.toList_ofList, List.cons_append, List.mem_cons, List.mem_append, List.mem_flatMap]
  rintro (h | ⟨c, -, h⟩ | h)
  · cases h
  · exact newLine_notMem_escapeChar c h
  · cases List.mem_singleton.1 h

private theorem newLine_notMem_repr (n : Nat) : '\n' ∉ n.repr.toList := by
  rw [Nat.toList_repr]
  exact fun h => ne_newLine_of_isDigit (Nat.isDigit_of_mem_toDigits (by decide) (by decide) h) rfl

private theorem newLine_notMem_digits {d : Decimal.Digits} (h : d.Proper) :
    '\n' ∉ (Decimal.Layout.json.digits d).toList := by
  have hdigits : '\n' ∉ d.digits := fun hmem => ne_newLine_of_isDigit (h.digits _ hmem) rfl
  have hzeros (n : Nat) : '\n' ∉ List.replicate n '0' := fun hmem => by cases List.eq_of_mem_replicate hmem
  unfold Decimal.Layout.digits
  dsimp only
  split
  · split
    · simp only [String.toList_append, String.toList_ofList, List.mem_append]
      exact not_or.2 ⟨by decide, not_or.2 ⟨hzeros _, hdigits⟩⟩
    split
    · rw [String.toList_append, String.toList_ofList, List.mem_append, List.mem_append]
      exact not_or.2 ⟨not_or.2 ⟨hdigits, hzeros _⟩, by decide⟩
    · rw [String.toList_ofList, List.mem_append, List.mem_cons]
      exact not_or.2 ⟨fun hmem => hdigits (List.mem_of_mem_take hmem),
        not_or.2 ⟨by decide, fun hmem => hdigits (List.mem_of_mem_drop hmem)⟩⟩
  · rw [String.toList_append, String.toList_append, List.mem_append, List.mem_append]
    refine not_or.2 ⟨not_or.2 ⟨?_, ?_⟩, newLine_notMem_repr _⟩
    · split
      · decide
      · next heq =>
        rw [heq] at hdigits
        rwa [Char.toString, String.toList_singleton]
      · next heq =>
        rw [heq] at hdigits
        rw [String.toList_ofList]
        rw [List.mem_cons] at hdigits ⊢
        rw [List.mem_cons]
        exact not_or.2 ⟨fun h => hdigits (.inl h), not_or.2 ⟨by decide, fun h => hdigits (.inr h)⟩⟩
    · split <;> decide

private theorem newLine_notMem_renderFloat (x : Float) : '\n' ∉ (renderFloat x).toList := by
  rcases hparts : Binary64.parts x with _ | p
  · rw [renderFloat_of_none hparts]
    decide
  · have htext : '\n' ∉ (if p.mantissa = 0 then "0" ++ Decimal.Layout.json.wholeSuffix
        else Decimal.Layout.json.digits (Decimal.shortest p)).toList := by
      split
      · decide
      · next hzero =>
        exact newLine_notMem_digits (Decimal.proper_shortest (Binary64.fits_of_partsOfBits hparts hzero)).1
    unfold renderFloat Decimal.Layout.finite?
    rw [hparts, Option.map_some, Option.getD_some]
    dsimp only
    split
    · rw [String.toList_append, List.mem_append]
      exact not_or.2 ⟨by decide, htext⟩
    · exact htext

mutual

/-- The text of a value stands on one line. -/
theorem newLine_notMem_compact : ∀ v : Json, '\n' ∉ (compact v).toList
  | .null => by decide
  | .bool true => by decide
  | .bool false => by decide
  | .int n => by
    rw [compact, Int.toString_eq_repr, Int.repr_eq_if]
    split
    · exact newLine_notMem_repr _
    · rw [String.toList_append, List.mem_append]
      exact not_or.2 ⟨by decide, newLine_notMem_repr _⟩
  | .float x => newLine_notMem_renderFloat x
  | .str s => newLine_notMem_quote s
  | .arr items => by
    simp [compact, newLine_notMem_compactItems items]
  | .obj members => by
    simp [compact, newLine_notMem_compactMembers members]

private theorem newLine_notMem_compactItems : ∀ items : List Json, '\n' ∉ (compactItems items).toList
  | [] => by decide
  | [v] => newLine_notMem_compact v
  | v :: w :: vs => by
    have htail := newLine_notMem_compactItems (w :: vs)
    simp [compactItems, newLine_notMem_compact v, htail]

private theorem newLine_notMem_compactMembers : ∀ members : List (String × Json),
    '\n' ∉ (compactMembers members).toList
  | [] => by decide
  | [(k, v)] => by simp [compactMembers, newLine_notMem_quote k, newLine_notMem_compact v]
  | (k, v) :: m :: ms => by
    have htail := newLine_notMem_compactMembers (m :: ms)
    simp [compactMembers, newLine_notMem_quote k, newLine_notMem_compact v, htail]

end

end Json

end MergedMining
