import MergedMining.Json.Members
import MergedMining.Proofs.Json.Text

/-!
# Members of an object

An object that has each of the known members once is read as these members (`Document.members_ofMembers`).  What
is found for a field of a record is what the record holds under its name, be it an object or an array
(`get_getD_of_members`).
-/

namespace MergedMining

namespace Json

/-! ### Objects with known members -/

/-- The document of an object with these members. -/
def Document.ofMembers (ms : List (String × Json)) : Document :=
  .obj (ms.map fun m => (some m.1, .leaf (some m.2)))

variable {ms : List (String × Json)}

theorem accepts_field (name key : String) : (field name).accepts key = decide (name = key) := by
  rw [field, Field.accepts, List.contains_nil, Bool.or_false]

private theorem filter_accepts {m : String × Json} (hnodup : (ms.map Prod.fst).Nodup) (h : m ∈ ms) :
    (ms.filter fun m' => (field m.1).accepts m'.1) = [m] := by
  induction ms with
  | nil => cases h
  | cons m' ms ih =>
    obtain ⟨hnot, hnodup⟩ := List.nodup_cons.1 hnodup
    rcases List.mem_cons.1 h with rfl | h
    · have hrest : ms.filter (fun m' => (field m.1).accepts m'.1) = [] := by
        refine List.filter_eq_nil_iff.2 fun m' hm' => ?_
        rw [accepts_field, decide_eq_true_eq]
        exact fun heq => hnot (heq ▸ List.mem_map_of_mem hm')
      rw [List.filter_cons_of_pos (by rw [accepts_field, decide_eq_true_eq]), hrest]
    · have hne : m.1 ≠ m'.1 := fun heq => hnot (heq ▸ List.mem_map_of_mem h)
      rw [List.filter_cons_of_neg (by rwa [accepts_field, decide_eq_true_eq]), ih hnodup h]

theorem Members.named?_of_nodup (hnodup : (ms.map Prod.fst).Nodup) :
    Members.named? ((ms.map Prod.fst).map field) ms = some ⟨false, ms.map fun m => (m.1, some m.2)⟩ := by
  have hfound : ((ms.map Prod.fst).map field).map (fun f => (f.name, ms.filter fun m => f.accepts m.1)) =
      ms.map fun m => (m.1, [m]) := by
    rw [List.map_map, List.map_map]
    refine List.map_congr_left fun m hm => ?_
    show (m.1, ms.filter fun m' => (field m.1).accepts m'.1) = _
    rw [filter_accepts hnodup hm]
  unfold Members.named?
  rw [hfound]
  dsimp only
  rw [if_pos (by simp), List.map_map]
  rfl

theorem mapM_map {α β γ : Type} {f : β → Option γ} {g : α → β} {k : α → γ} {xs : List α}
    (h : ∀ x ∈ xs, f (g x) = some (k x)) : (xs.map g).mapM f = some (xs.map k) := by
  induction xs with
  | nil => rfl
  | cons x xs ih =>
    rw [List.map_cons, List.mapM_cons, h x List.mem_cons_self, ih fun y hy => h y (List.mem_cons_of_mem _ hy)]
    rfl

theorem Document.members_ofMembers (hnodup : (ms.map Prod.fst).Nodup) :
    Document.members ((ms.map Prod.fst).map field) (.ofMembers ms) =
      some ⟨false, ms.map fun m => (m.1, some m.2)⟩ := by
  have hknown : (ms.map fun m => (m.1, Document.leaf (some m.2))).filter
      (fun m => ((ms.map Prod.fst).map field).any (·.accepts m.1)) =
        ms.map fun m => (m.1, Document.leaf (some m.2)) := by
    refine List.filter_eq_self.2 fun m hm => ?_
    obtain ⟨m', hm', rfl⟩ := List.mem_map.1 hm
    refine List.any_eq_true.2 ⟨field m'.1, List.mem_map_of_mem (List.mem_map_of_mem hm'), ?_⟩
    rw [accepts_field, decide_eq_true_eq]
  have hkeyed : (ms.map fun m => (some m.1, Document.leaf (some m.2))).mapM
      (fun m => m.1.map (·, m.2)) = some (ms.map fun m => (m.1, Document.leaf (some m.2))) := mapM_map fun _ _ => rfl
  have hvalues : (ms.map fun m => (m.1, Document.leaf (some m.2))).mapM
      (fun m => (m.2.value? (maxDepth - 1)).map (m.1, ·)) = some (ms.map id) := mapM_map fun _ _ => rfl
  show ((ms.map fun m => (some m.1, Document.leaf (some m.2))).mapM
    fun m : Option String × Document => m.1.map (·, m.2)).bind _ = _
  rw [hkeyed, Option.bind_some, hknown]
  show ((ms.map fun m => (m.1, Document.leaf (some m.2))).mapM
    fun m : String × Document => (m.2.value? (maxDepth - 1)).map (m.1, ·)).bind _ = _
  rw [hvalues, Option.bind_some, List.map_id]
  exact Members.named?_of_nodup hnodup

theorem Document.exists_value?_ofMembers (ms : List (String × Json)) :
    ∃ v, (Document.ofMembers ms).value? maxDepth = some v := by
  have hmembers : ∃ vs, memberValues? 126 (ms.map fun m => (some m.1, Document.leaf (some m.2))) = some vs := by
    induction ms with
    | nil => exact ⟨[], rfl⟩
    | cons m ms ih =>
      obtain ⟨vs, hvs⟩ := ih
      refine ⟨insertMember m.1 m.2 vs, ?_⟩
      have hvalue : (Document.leaf (some m.2)).value? 126 = some m.2 := rfl
      simp only [List.map_cons, memberValues?, hvalue, hvs]
  obtain ⟨vs, hvs⟩ := hmembers
  refine ⟨.obj vs, ?_⟩
  show (memberValues? 126 _).map _ = _
  rw [hvs]
  rfl

/-! ### What a record holds -/

/-- What a record holds under a name, its fields having these names in this order; null when it holds nothing. -/
def held (names : List String) (name : String) : Json → Json
  | .obj ms => (ms.lookup name).getD .null
  | .arr items => ((names.zip items).lookup name).getD .null
  | _ => .null

variable {names : List String} {name : String} {m : Members}

private theorem lookup_map {α : Type} (f : String → α) (hname : name ∈ names) :
    (names.map fun n => (n, f n)).lookup name = some (f name) := by
  induction names with
  | nil => cases hname
  | cons n names ih =>
    rw [List.map_cons, List.lookup_cons]
    by_cases heq : name = n
    · rw [heq, beq_self_eq_true]
    · have hne : (name == n) = false := beq_eq_false_iff_ne.2 heq
      rw [hne]
      exact ih (List.mem_of_ne_of_mem heq hname)

theorem head?_filter_accepts (name : String) (ms : List (String × Json)) :
    (ms.filter fun m => (field name).accepts m.1).head?.map Prod.snd = ms.lookup name := by
  induction ms with
  | nil => rfl
  | cons m ms ih =>
    rw [List.lookup_cons]
    by_cases heq : name = m.1
    · rw [List.filter_cons_of_pos (by rw [accepts_field, decide_eq_true_eq, heq]), heq, beq_self_eq_true]
      rfl
    · have hne : (name == m.1) = false := beq_eq_false_iff_ne.2 heq
      rw [List.filter_cons_of_neg (by rwa [accepts_field, decide_eq_true_eq]), ih, hne]

theorem Members.get_of_named? (h : named? (names.map field) ms = some m) (hname : name ∈ names) :
    m.get name = ms.lookup name := by
  unfold named? at h
  dsimp only at h
  split at h
  · cases h
    have hlookup := lookup_map (fun n => (ms.filter fun m => (field n).accepts m.1).head?.map Prod.snd) hname
    rw [get, List.map_map, List.map_map, ← head?_filter_accepts]
    exact congrArg Option.join hlookup
  · cases h

private theorem lookup_zip_padded {items : List Json} (hlength : items.length ≤ names.length) :
    ((names.zip (items.map some ++ List.replicate (names.length - items.length) none)).lookup name).join =
      (names.zip items).lookup name := by
  induction names generalizing items with
  | nil => rfl
  | cons n names ih =>
    rcases items with _ | ⟨v, items⟩
    · have hrest := @ih [] (Nat.zero_le _)
      rw [List.zip_nil_right, List.map_nil, List.nil_append] at hrest
      show (((n, none) :: names.zip (List.replicate names.length none)).lookup name).join = _
      rw [List.lookup_cons]
      rcases name == n with _ | _
      · exact hrest
      · rfl
    · have hrest := @ih items (Nat.le_of_succ_le_succ hlength)
      have hcount : (n :: names).length - (v :: items).length = names.length - items.length := by simp
      rw [hcount]
      show (((n, some v) :: names.zip (items.map some ++ _)).lookup name).join =
        ((n, v) :: names.zip items).lookup name
      rw [List.lookup_cons, List.lookup_cons]
      rcases name == n with _ | _
      · exact hrest
      · rfl

theorem Members.get_of_positional? {items : List Json} (h : positional? (names.map field) items = some m) :
    m.get name = (names.zip items).lookup name := by
  unfold positional? at h
  split at h
  · next hlength =>
    cases h
    rw [List.length_map] at hlength
    rw [get, ← lookup_zip_padded hlength, List.length_map, List.zip_map_left, List.map_map]
    exact congrArg (fun values => (List.lookup name values).join) (List.map_id _)
  · cases h

/-- What is found for a field is what the record holds under its name. -/
theorem get_getD_of_members {v : Json} (h : members (names.map field) v = some m) (hname : name ∈ names) :
    (m.get name).getD .null = held names name v := by
  cases v with
  | obj ms => rw [Members.get_of_named? h hname, held]
  | arr items => rw [Members.get_of_positional? h, held]
  | null => cases h
  | bool _ => cases h
  | int _ => cases h
  | float _ => cases h
  | str _ => cases h

/-! ### Single members -/

theorem Members.optionalWithDefault_eq {α : Type} (m : Members) (name : String) (read : Json → Option α) :
    m.optionalWithDefault name read = toOption? read ((m.get name).getD .null) := by
  unfold optionalWithDefault withDefault
  rcases m.get name with _ | v
  · rfl
  · rfl

theorem Members.optional_eq_some {α : Type} {read : Json → Option α} {x : Option α}
    (h : m.optional name read = some x) : toOption? read ((m.get name).getD .null) = some x := by
  unfold optional at h
  split at h
  · next hget =>
    split at h
    · cases h
    · rw [hget]
      exact h
  · next v hget =>
    rw [hget]
    exact h

theorem toOption?_eq_some {α : Type} {read : Json → Option α} {v : Json} {x : Option α} :
    toOption? read v = some x ↔ (v = .null ∧ x = none) ∨ (v ≠ .null ∧ ∃ a, read v = some a ∧ x = some a) := by
  unfold toOption?
  split
  · simp [eq_comm]
  · next hne =>
    have hnull : v ≠ .null := fun heq => hne heq
    simp [hnull, Option.map_eq_some_iff, eq_comm]

theorem Members.required_of_get {α : Type} {v : Json} (h : m.get name = some v)
    (read : Json → Option α) : m.required name read = read v := by
  rw [required, h, Option.bind_some]

/-! ### Single values -/

/-- Only a string is read as a string. -/
theorem toStr?_eq_some {v : Json} {s : String} : v.toStr? = some s ↔ v = .str s := by
  cases v <;> simp [toStr?]

theorem eq_int_of_toInt? {v : Json} {low high n : Int} (h : v.toInt? low high = some n) : v = .int n := by
  unfold toInt? at h
  split at h
  · split at h
    · cases h
      rfl
    · cases h
  · cases h

theorem eq_ofNat_of_toNat? {v : Json} {limit n : Nat} (h : v.toNat? limit = some n) : v = .ofNat n ∧ n < limit := by
  unfold toNat? at h
  split at h
  · split at h
    · next hbounds =>
      obtain ⟨hnonneg, hlt⟩ := hbounds
      cases h
      exact ⟨congrArg Json.int (Int.toNat_of_nonneg hnonneg).symm, by omega⟩
    · cases h
  · cases h

theorem toSome?_getD (v : Json) : v.toSome?.getD .null = v := by
  cases v <;> rfl

theorem toSome?_isSome_iff {v : Json} : v.toSome?.isSome = true ↔ v ≠ .null := by
  cases v <;> simp [toSome?]

theorem toOption?_some (v : Json) : toOption? some v = some v.toSome? := by
  cases v <;> rfl

theorem toNat?_ofNat {n limit : Nat} (h : n < limit) : (Json.ofNat n).toNat? limit = some n := by
  have hbounds : 0 ≤ (n : Int) ∧ (n : Int) < limit := ⟨Int.natCast_nonneg n, by exact_mod_cast h⟩
  rw [Json.ofNat, Json.toNat?, if_pos hbounds, Int.toNat_natCast]

theorem toUInt64?_ofNat (n : UInt64) : (Json.ofNat n.toNat).toUInt64? = some n := by
  rw [Json.toUInt64?, toNat?_ofNat n.toNat_lt, Option.map_some, UInt64.ofNat_toNat]

theorem toUInt32?_ofNat (n : UInt32) : (Json.ofNat n.toNat).toUInt32? = some n := by
  rw [Json.toUInt32?, toNat?_ofNat n.toNat_lt, Option.map_some, UInt32.ofNat_toNat]

theorem inRange_toNat (n : UInt64) : InRange n.toNat := by
  have hlt := n.toNat_lt
  unfold InRange
  omega

end Json

end MergedMining
