import Mathlib.Data.List.Forall2
import MergedMining.Proofs.Json.Members
import MergedMining.Proofs.Outcome

/-!
# Records in a document

A record is read out of a document without a value for the rest of it.  For an object this means that every key
is readable, that each field is there at most once, and that what is there has a value
(`exists_members_obj_iff`); for an array of two fields, that no more than two items are there
(`exists_members_arr_iff`).
-/

namespace MergedMining

namespace Json

/-- What stands in an object under a key. -/
def Document.under (key : String) (ms : List (Option String × Document)) : List Document :=
  (ms.filter fun m => m.1 = some key).map Prod.snd

/-- The value of what stands in a record for a field: null for nothing, and for a single document its own. -/
inductive Gives : List Document → Json → Prop
  | absent : Gives [] .null
  | present {d : Document} {v : Json} (h : d.value? (maxDepth - 1) = some v) : Gives [d] v

variable {names : List String} {a b name : String} {ds : List Document} {ms : List (Option String × Document)}
  {keyed : List (String × Document)} {known : List (String × Json)} {v w : Json}

/-! ### Objects -/

private theorem keyed_eq_some_iff :
    (ms.mapM fun m => m.1.map (·, m.2)) = some keyed ↔ ms = keyed.map fun m => (some m.1, m.2) := by
  have hsame : ∀ (m : Option String × Document) (m' : String × Document),
      m.1.map (·, m.2) = some m' ↔ m = (some m'.1, m'.2) := by
    rintro ⟨_ | k, d⟩ ⟨k', d'⟩ <;> simp
  rw [Outcome.mapM_eq_some_iff]
  simp only [hsame]
  rw [← List.forall₂_map_right_iff, List.forall₂_eq_eq_eq]

private theorem exists_keyed_iff :
    (∃ keyed : List (String × Document), ms = keyed.map fun m => (some m.1, m.2)) ↔ ∀ m ∈ ms, m.1 ≠ none := by
  constructor
  · rintro ⟨keyed, rfl⟩ m hm
    obtain ⟨m', -, rfl⟩ := List.mem_map.1 hm
    exact nofun
  · intro h
    refine ⟨ms.map fun m => (m.1.getD "", m.2), ?_⟩
    rw [List.map_map]
    refine (List.map_id ms).symm.trans (List.map_congr_left fun m hm => ?_)
    obtain ⟨_ | key, d⟩ := m
    · exact absurd rfl (h _ hm)
    · rfl

/-- The members of an object that stand for a field. -/
private def ofField {α : Type} (name : String) (ms : List (String × α)) : List (String × α) :=
  ms.filter fun m => (field name).accepts m.1

private theorem under_map :
    Document.under name (keyed.map fun m => (some m.1, m.2)) = (ofField name keyed).map Prod.snd := by
  unfold Document.under ofField
  rw [List.filter_map, List.map_map]
  simp only [Function.comp_def, Option.some.injEq, accepts_field, eq_comm]

/-- A member as it is written and as it is read. -/
private def SameMember (m : String × Document) (m' : String × Json) : Prop :=
  (m.2.value? (maxDepth - 1)).map (m.1, ·) = some m'

private theorem sameMember_iff {m : String × Document} {m' : String × Json} :
    SameMember m m' ↔ m'.1 = m.1 ∧ m.2.value? (maxDepth - 1) = some m'.2 := by
  obtain ⟨key, v⟩ := m'
  simp only [SameMember, Option.map_eq_some_iff, Prod.mk.injEq]
  constructor
  · rintro ⟨v, hv, rfl, rfl⟩
    exact ⟨rfl, hv⟩
  · rintro ⟨rfl, hv⟩
    exact ⟨v, hv, rfl, rfl⟩

/-- The members of an object that stand for one of the fields. -/
private def ofFields (names : List String) (keyed : List (String × Document)) : List (String × Document) :=
  keyed.filter fun m => (names.map field).any (·.accepts m.1)

private theorem ofField_ofFields (hname : name ∈ names) :
    ofField name (ofFields names keyed) = ofField name keyed := by
  unfold ofField ofFields
  rw [List.filter_filter]
  refine List.filter_congr fun m _ => ?_
  rcases haccepts : (field name).accepts m.1 with _ | _
  · rfl
  · exact List.any_eq_true.2 ⟨field name, List.mem_map_of_mem hname, haccepts⟩

private theorem forall₂_ofField (h : List.Forall₂ SameMember (ofFields names keyed) known) (hname : name ∈ names) :
    List.Forall₂ SameMember (ofField name keyed) (ofField name known) := by
  rw [← ofField_ofFields hname]
  refine List.rel_filter ?_ h
  intro m m' hsame
  show (field name).accepts m.1 = true ↔ (field name).accepts m'.1 = true
  rw [(sameMember_iff.1 hsame).1]

private theorem gives_iff {fs : List (String × Document)} {vs : List (String × Json)}
    (h : List.Forall₂ SameMember fs vs) :
    Gives (fs.map Prod.snd) v ↔ vs.length ≤ 1 ∧ (vs.head?.map Prod.snd).getD .null = v := by
  cases h with
  | nil =>
    constructor
    · rintro ⟨⟩
      exact ⟨Nat.zero_le 1, rfl⟩
    · rintro ⟨-, rfl⟩
      exact .absent
  | @cons m m' fs vs hfirst hrest =>
    obtain ⟨-, hvalue⟩ := sameMember_iff.1 hfirst
    cases hrest with
    | nil =>
      constructor
      · rintro (_ | hv)
        exact ⟨le_rfl, Option.some.inj (hvalue.symm.trans hv)⟩
      · rintro ⟨-, rfl⟩
        exact .present hvalue
    | cons _ _ =>
      constructor
      · nofun
      · rintro ⟨hlength, -⟩
        simp at hlength

private theorem exists_forall₂ (h : ∀ name ∈ names, ∃ v, Gives ((ofField name keyed).map Prod.snd) v) :
    ∃ known, List.Forall₂ SameMember (ofFields names keyed) known := by
  refine ⟨(ofFields names keyed).map fun m => (m.1, (m.2.value? (maxDepth - 1)).getD .null), ?_⟩
  rw [List.forall₂_map_right_iff, List.forall₂_same]
  intro m hm
  obtain ⟨hkeyed, hany⟩ := List.mem_filter.1 hm
  obtain ⟨f, hf, haccepts⟩ := List.any_eq_true.1 hany
  obtain ⟨name, hname, rfl⟩ := List.mem_map.1 hf
  -- the field has one member at most, so it is this one
  have hmem : m.2 ∈ (ofField name keyed).map Prod.snd := List.mem_map_of_mem (List.mem_filter.2 ⟨hkeyed, haccepts⟩)
  obtain ⟨v, hgives⟩ := h name hname
  obtain ⟨v, hvalue⟩ : ∃ v, m.2.value? (maxDepth - 1) = some v := by
    generalize (ofField name keyed).map Prod.snd = ds at hmem hgives
    cases hgives with
    | absent => cases hmem
    | present hv =>
      rw [List.mem_singleton.1 hmem]
      exact ⟨_, hv⟩
  exact sameMember_iff.2 ⟨rfl, by rw [hvalue]; rfl⟩

private theorem exists_named?_iff : (∃ m, Members.named? (names.map field) known = some m) ↔
    ∀ name ∈ names, (ofField name known).length ≤ 1 := by
  have hall : ((names.map field).map fun f => (f.name, known.filter fun m => f.accepts m.1)).all
      (fun m => decide (m.2.length ≤ 1)) = true ↔ ∀ name ∈ names, (ofField name known).length ≤ 1 := by
    simp only [List.map_map, List.all_map, List.all_eq_true, Function.comp_apply, decide_eq_true_eq]
    rfl
  unfold Members.named?
  dsimp only
  rw [← hall]
  split
  · next h => exact iff_of_true ⟨_, rfl⟩ h
  · next h => exact iff_of_false (fun ⟨_, h'⟩ => nomatch h') h

private theorem members_obj_eq_some_iff {m : Members} : Document.members (names.map field) (.obj ms) = some m ↔
    ∃ keyed, ms = keyed.map (fun m => (some m.1, m.2)) ∧
      ∃ known, List.Forall₂ SameMember (ofFields names keyed) known ∧
        Members.named? (names.map field) known = some m := by
  show ((ms.mapM fun m : Option String × Document => m.1.map (·, m.2)).bind fun keyed =>
    ((ofFields names keyed).mapM fun m : String × Document => (m.2.value? (maxDepth - 1)).map (m.1, ·)).bind
      (Members.named? (names.map field))) = some m ↔ _
  simp only [Option.bind_eq_some_iff, keyed_eq_some_iff]
  simp only [Outcome.mapM_eq_some_iff]
  rfl

/-- A record is read out of an object if all its keys are readable and each field is there at most once, with a
value. -/
theorem exists_members_obj_iff {f : String → Json} :
    (∃ m, Document.members (names.map field) (.obj ms) = some m ∧ ∀ name ∈ names, (m.get name).getD .null = f name) ↔
      (∀ m ∈ ms, m.1 ≠ none) ∧ ∀ name ∈ names, Gives (Document.under name ms) (f name) := by
  simp only [members_obj_eq_some_iff, ← exists_keyed_iff]
  constructor
  · rintro ⟨m, ⟨keyed, rfl, known, hknown, hnamed⟩, hget⟩
    refine ⟨⟨keyed, rfl⟩, fun name hname => ?_⟩
    rw [under_map, gives_iff (forall₂_ofField hknown hname), ← hget name hname, Members.get_of_named? hnamed hname,
      ← head?_filter_accepts]
    exact ⟨exists_named?_iff.1 ⟨m, hnamed⟩ name hname, rfl⟩
  · rintro ⟨⟨keyed, rfl⟩, hgives⟩
    simp only [under_map] at hgives
    obtain ⟨known, hknown⟩ := exists_forall₂ fun name hname => ⟨_, hgives name hname⟩
    have hread := fun name hname => (gives_iff (forall₂_ofField hknown hname)).1 (hgives name hname)
    obtain ⟨m, hnamed⟩ := exists_named?_iff.2 fun name hname => (hread name hname).1
    refine ⟨m, ⟨keyed, rfl, known, hknown, hnamed⟩, fun name hname => ?_⟩
    rw [Members.get_of_named? hnamed hname, ← head?_filter_accepts]
    exact (hread name hname).2

/-! ### Arrays -/

private theorem itemValues?_eq_some_iff {room : Nat} {items : List Json} :
    itemValues? room ds = some items ↔ List.Forall₂ (fun d v => d.value? room = some v) ds items := by
  induction ds generalizing items with
  | nil => simp [itemValues?, eq_comm]
  | cons d ds ih =>
    rw [itemValues?, List.forall₂_cons_left_iff]
    simp only [← ih]
    rcases d.value? room with _ | v <;> rcases itemValues? room ds with _ | vs <;> simp [eq_comm]

private theorem exists_positional?_iff {items : List Json} (hne : a ≠ b) :
    (∃ m, Members.positional? ([a, b].map field) items = some m ∧ (m.get a).getD .null = v ∧
      (m.get b).getD .null = w) ↔
      items.length ≤ 2 ∧ items[0]?.getD .null = v ∧ items[1]?.getD .null = w := by
  have hfields : ∀ m, Members.positional? ([a, b].map field) items = some m →
      m.get a = items[0]? ∧ m.get b = items[1]? := by
    intro m hm
    rw [Members.get_of_positional? hm, Members.get_of_positional? hm]
    have hba : (b == a) = false := beq_eq_false_iff_ne.2 hne.symm
    rcases items with _ | ⟨v, _ | ⟨w, _⟩⟩ <;> simp [List.lookup_cons, hba]
  constructor
  · rintro ⟨m, hm, rfl, rfl⟩
    obtain ⟨ha, hb⟩ := hfields m hm
    refine ⟨?_, by rw [ha], by rw [hb]⟩
    by_contra hlength
    have hmore : ¬ items.length ≤ ([a, b].map field).length := hlength
    rw [Members.positional?, if_neg hmore] at hm
    cases hm
  · rintro ⟨hlength, hv, hw⟩
    obtain ⟨ha, hb⟩ := hfields _ (if_pos hlength)
    exact ⟨_, if_pos hlength, by rw [ha, hv], by rw [hb, hw]⟩

/-- A record of two fields is read out of an array if there are no more than two items, and they have values. -/
theorem exists_members_arr_iff (hne : a ≠ b) :
    (∃ m, Document.members ([a, b].map field) (.arr ds) = some m ∧ (m.get a).getD .null = v ∧
      (m.get b).getD .null = w) ↔
      Gives (ds.take 1) v ∧ Gives (ds.drop 1) w := by
  have hmembers : (∃ m, Document.members ([a, b].map field) (.arr ds) = some m ∧ (m.get a).getD .null = v ∧
      (m.get b).getD .null = w) ↔ ∃ items, List.Forall₂ (fun d v => d.value? (maxDepth - 1) = some v) ds items ∧
        items.length ≤ 2 ∧ items[0]?.getD .null = v ∧ items[1]?.getD .null = w := by
    show (∃ m, ((itemValues? (maxDepth - 1) ds).bind (Members.positional? ([a, b].map field))) = some m ∧ _) ↔ _
    simp only [Option.bind_eq_some_iff, itemValues?_eq_some_iff, ← exists_positional?_iff hne]
    constructor
    · rintro ⟨m, ⟨items, hitems, hm⟩, hget⟩
      exact ⟨items, hitems, m, hm, hget⟩
    · rintro ⟨items, hitems, m, hm, hget⟩
      exact ⟨m, ⟨items, hitems, hm⟩, hget⟩
  rw [hmembers]
  constructor
  · rintro ⟨items, hitems, hlength, rfl, rfl⟩
    cases hitems with
    | nil => exact ⟨.absent, .absent⟩
    | cons hfirst hrest =>
      cases hrest with
      | nil => exact ⟨.present hfirst, .absent⟩
      | cons hsecond hrest =>
        cases hrest with
        | nil => exact ⟨.present hfirst, .present hsecond⟩
        | cons _ _ => simp at hlength
  · rintro ⟨hv, hw⟩
    rcases ds with _ | ⟨d, ds⟩
    · cases hv
      cases hw
      exact ⟨[], .nil, Nat.zero_le 2, rfl, rfl⟩
    · cases hv with
      | present hfirst =>
        cases hw with
        | absent => exact ⟨[_], .cons hfirst .nil, Nat.le_succ 1, rfl, rfl⟩
        | present hsecond => exact ⟨[_, _], .cons hfirst (.cons hsecond .nil), le_rfl, rfl, rfl⟩

/-! ### Records of two fields -/

/-- Whether a document is a record whose two fields have these values. -/
def Document.Holds (a b : String) (v w : Json) : Document → Prop
  | .obj ms => (∀ m ∈ ms, m.1 ≠ none) ∧ Gives (under a ms) v ∧ Gives (under b ms) w
  | .arr ds => Gives (ds.take 1) v ∧ Gives (ds.drop 1) w
  | .leaf _ => False

/-- What is read out of a document as a record of two fields is what the document holds for them. -/
theorem exists_members_iff {d : Document} (hne : a ≠ b) :
    (∃ m, d.members ([a, b].map field) = some m ∧ (m.get a).getD .null = v ∧ (m.get b).getD .null = w) ↔
      d.Holds a b v w := by
  cases d with
  | leaf _ =>
    refine iff_of_false ?_ id
    rintro ⟨_, h, -⟩
    cases h
  | arr ds => exact exists_members_arr_iff hne
  | obj ms =>
    have h := @exists_members_obj_iff [a, b] ms fun name => if name = a then v else w
    simpa [Document.Holds, hne.symm] using h

end Json

end MergedMining
