import MergedMining.Proofs.Json.Members

/-!
# Values that outlive their text

A value is read back from its text when its doubles are, its whole numbers have 64 bits, the keys of its objects
ascend and it does not nest too deep (`parse?_compact_of_isSettled`).  Members are then found in the text as
they are found in the value (`members_parse?_compact`).
-/

namespace MergedMining

namespace Json

mutual

/-- A value that nests at most so deep and is read as it is written. -/
def IsSettled : Nat → Json → Prop
  | _, .int n => InRange n
  | _, .float x => ReadsBack x
  | room + 1, .arr items => AreSettled room items
  | room + 1, .obj members => (members.map Prod.fst).Pairwise (· < ·) ∧ HasSettled room members
  | 0, .arr _ => False
  | 0, .obj _ => False
  | _, .null => True
  | _, .bool _ => True
  | _, .str _ => True

/-- Items that are read as they are written. -/
def AreSettled : Nat → List Json → Prop
  | _, [] => True
  | room, v :: vs => v.IsSettled room ∧ AreSettled room vs

/-- Members whose values are read as they are written. -/
def HasSettled : Nat → List (String × Json) → Prop
  | _, [] => True
  | room, (_, v) :: rest => v.IsSettled room ∧ HasSettled room rest

end

variable {room : Nat} {v : Json} {items : List Json} {ms : List (String × Json)}

theorem areSettled_iff : AreSettled room items ↔ ∀ v ∈ items, v.IsSettled room := by
  induction items with
  | nil => simp [AreSettled]
  | cons v vs ih => simp [AreSettled, ih]

theorem hasSettled_iff : HasSettled room ms ↔ ∀ m ∈ ms, m.2.IsSettled room := by
  induction ms with
  | nil => simp [HasSettled]
  | cons m ms ih => simp [HasSettled, ih]

mutual

private theorem ranged_of_isSettled : ∀ {room : Nat} (v : Json), v.IsSettled room → v.Ranged
  | _, .null, _ => trivial
  | _, .bool _, _ => trivial
  | _, .str _, _ => trivial
  | _, .float _, _ => trivial
  | _, .int _, h => by
    rw [IsSettled] at h
    exact h
  | 0, .arr _, h => h.elim
  | 0, .obj _, h => h.elim
  | _ + 1, .arr items, h => rangedItems_of_areSettled items h
  | _ + 1, .obj members, h => rangedMembers_of_hasSettled members h.2

private theorem rangedItems_of_areSettled : ∀ {room : Nat} (items : List Json),
    AreSettled room items → RangedItems items
  | _, [], _ => trivial
  | _, v :: vs, h => ⟨ranged_of_isSettled v h.1, rangedItems_of_areSettled vs h.2⟩

private theorem rangedMembers_of_hasSettled : ∀ {room : Nat} (members : List (String × Json)),
    HasSettled room members → RangedMembers members
  | _, [], _ => trivial
  | _, (_, v) :: rest, h => ⟨ranged_of_isSettled v h.1, rangedMembers_of_hasSettled rest h.2⟩

end

private theorem insertMember_of_lt {k : String} (h : ∀ k' ∈ ms.map Prod.fst, k < k') :
    insertMember k v ms = (k, v) :: ms := by
  rcases ms with _ | ⟨⟨k', w⟩, ms⟩
  · rfl
  · have hlt : k < k' := h k' (by simp)
    have hne : k ≠ k' := fun heq => String.lt_irrefl k' (heq ▸ hlt)
    rw [insertMember, if_neg hne, if_pos hlt]

mutual

/-- What a value is written as stands for this value. -/
theorem value?_document : ∀ {room : Nat} (v : Json), v.IsSettled room → v.document.value? room = some v
  | _, .null, _ => by simp [document, Document.value?]
  | _, .bool _, _ => by simp [document, Document.value?]
  | _, .str _, _ => by simp [document, Document.value?]
  | _, .int _, _ => by simp [document, Document.value?]
  | _, .float x, h => by
    rw [IsSettled] at h
    rw [document, Document.value?, rereadFloat_of_readsBack h]
  | 0, .arr _, h => h.elim
  | 0, .obj _, h => h.elim
  | _ + 1, .arr items, h => by
    rw [document, Document.value?, itemValues?_documents items h, Option.map_some]
  | _ + 1, .obj members, h => by
    rw [document, Document.value?, memberValues?_memberDocuments members h.1 h.2, Option.map_some]

theorem itemValues?_documents : ∀ {room : Nat} (items : List Json), AreSettled room items →
    itemValues? room (documents items) = some items
  | _, [], _ => by rw [documents, itemValues?]
  | _, v :: vs, h => by
    rw [documents, itemValues?, value?_document v h.1, itemValues?_documents vs h.2]

private theorem memberValues?_memberDocuments : ∀ {room : Nat} (members : List (String × Json)),
    (members.map Prod.fst).Pairwise (· < ·) → HasSettled room members →
      memberValues? room (memberDocuments members) = some members
  | _, [], _, _ => by rw [memberDocuments, memberValues?]
  | _, (k, v) :: rest, hkeys, h => by
    obtain ⟨hfirst, hkeys⟩ := List.pairwise_cons.1 hkeys
    simp only [memberDocuments, memberValues?, value?_document v h.1, memberValues?_memberDocuments rest hkeys h.2,
      insertMember_of_lt hfirst]

end

/-- A settled value is read from its text. -/
theorem parse?_compact_of_isSettled (h : v.IsSettled maxDepth) : parse? v.compact = some v := by
  rw [parse?, parse?_compact (ranged_of_isSettled v h), Option.bind_some, value?_document v h]

/-! ### Records -/

variable {fields : List Field} {names : List String} {name : String}

private theorem mem_of_lookup {α : Type} {entries : List (String × α)} {a : α} (h : entries.lookup name = some a) :
    (name, a) ∈ entries := by
  obtain ⟨before, after, hentries, -⟩ := List.lookup_eq_some_iff.1 h
  simp [hentries]

/-- What a settled record holds is settled. -/
theorem isSettled_held (h : v.IsSettled (room + 1)) : (held names name v).IsSettled room := by
  cases v with
  | obj ms =>
    rw [held]
    rcases hlookup : ms.lookup name with _ | w
    · simp [IsSettled]
    · exact hasSettled_iff.1 h.2 _ (mem_of_lookup hlookup)
  | arr items =>
    rw [held]
    rcases hlookup : (names.zip items).lookup name with _ | w
    · simp [IsSettled]
    · exact areSettled_iff.1 h _ (List.of_mem_zip (mem_of_lookup hlookup)).2
  | null => simp [held, IsSettled]
  | bool _ => simp [held, IsSettled]
  | int _ => simp [held, IsSettled]
  | float _ => simp [held, IsSettled]
  | str _ => simp [held, IsSettled]

private theorem memberDocuments_eq_map (ms : List (String × Json)) :
    memberDocuments ms = ms.map fun m => (some m.1, m.2.document) := by
  induction ms with
  | nil => rfl
  | cons m ms ih => rw [memberDocuments, ih, List.map_cons]

/-- Only the known members of an object are looked at. -/
private theorem named?_filter (fields : List Field) (ms : List (String × Json)) :
    Members.named? fields (ms.filter fun m => fields.any (·.accepts m.1)) = Members.named? fields ms := by
  have hsame : ∀ f ∈ fields, (ms.filter fun m => fields.any (·.accepts m.1)).filter (fun m => f.accepts m.1) =
      ms.filter fun m => f.accepts m.1 := by
    intro f hf
    rw [List.filter_filter]
    refine List.filter_congr fun m _ => ?_
    rcases haccepts : f.accepts m.1 with _ | _
    · rfl
    · rw [Bool.true_and]
      exact List.any_eq_true.2 ⟨f, hf, haccepts⟩
  have hfound : fields.map (fun f =>
      (f.name, (ms.filter fun m => fields.any (·.accepts m.1)).filter fun m => f.accepts m.1)) =
      fields.map fun f => (f.name, ms.filter fun m => f.accepts m.1) :=
    List.map_congr_left fun f hf => by rw [hsame f hf]
  rw [Members.named?, Members.named?, hfound]

private theorem members_memberDocuments (h : HasSettled (maxDepth - 1) ms) :
    Document.members fields (Json.obj ms).document = Json.members fields (.obj ms) := by
  have hkeyed : (memberDocuments ms).mapM (fun m => m.1.map (·, m.2)) =
      some (ms.map fun m => (m.1, m.2.document)) := by
    rw [memberDocuments_eq_map]
    exact mapM_map fun _ _ => rfl
  have hknown : (ms.map fun m => (m.1, m.2.document)).filter (fun m => fields.any (·.accepts m.1)) =
      (ms.filter fun m => fields.any (·.accepts m.1)).map fun m => (m.1, m.2.document) := by
    rw [List.filter_map]
    rfl
  have hvalues : ((ms.filter fun m => fields.any (·.accepts m.1)).map fun m => (m.1, m.2.document)).mapM
      (fun m => (m.2.value? (maxDepth - 1)).map (m.1, ·)) =
        some ((ms.filter fun m => fields.any (·.accepts m.1)).map id) := by
    refine mapM_map fun m hm => ?_
    have hsettled := hasSettled_iff.1 h m (List.mem_of_mem_filter hm)
    dsimp only
    rw [value?_document m.2 hsettled]
    rfl
  show ((memberDocuments ms).mapM fun m : Option String × Document => m.1.map (·, m.2)).bind _ = _
  rw [hkeyed, Option.bind_some, hknown]
  show (((ms.filter _).map _).mapM fun m : String × Document => (m.2.value? (maxDepth - 1)).map (m.1, ·)).bind _ = _
  rw [hvalues, Option.bind_some, List.map_id, named?_filter]
  rfl

/-- The members of an object are found in its text, in whatever order they are written. -/
theorem members_parse?_obj (h : HasSettled (maxDepth - 1) ms) :
    (Document.parse? (Json.obj ms).compact).bind (Document.members fields) = members fields (.obj ms) := by
  have hranged : (Json.obj ms).Ranged := rangedMembers_of_hasSettled ms h
  rw [parse?_compact hranged, Option.bind_some, members_memberDocuments h]

/-- The members of a settled value are found in its text. -/
theorem members_parse?_compact (h : v.IsSettled maxDepth) :
    (Document.parse? v.compact).bind (Document.members fields) = members fields v := by
  rw [parse?_compact (ranged_of_isSettled v h), Option.bind_some]
  cases v with
  | null => rfl
  | bool _ => rfl
  | int _ => rfl
  | float _ => rfl
  | str _ => rfl
  | arr items =>
    have hitems : itemValues? (maxDepth - 1) (documents items) = some items := itemValues?_documents items h
    show (itemValues? (maxDepth - 1) (documents items)).bind _ = _
    rw [hitems]
    rfl
  | obj ms => exact members_memberDocuments h.2

end Json

end MergedMining
