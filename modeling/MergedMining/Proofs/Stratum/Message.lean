import MergedMining.Proofs.Json.Values
import MergedMining.Stratum.Message

/-!
# Messages that are read twice

A record says under `method` and `id` which of the three a message is, and it may say so by place or by name
(`exists_of_ofJson?`).  What is written for a message holds the same values as what it was read from, so it is
read as the same message (`toJson_of_ofJson?`, `ofJson?_toJson`).
-/

namespace MergedMining

namespace Stratum

open Json (held Members toOption? toOption?_some toSome?_getD toSome?_isSome_iff maxDepth)

/-! ### Ids and refusals -/

/-- An id is written as the value that it was read from. -/
theorem Id.toJson_of_ofJson? {v : Json} {id : Id} (h : ofJson? v = some id) : id.toJson = v := by
  unfold ofJson? at h
  split at h
  · cases h
    rfl
  · cases h
    rfl
  · obtain ⟨word, hword, rfl⟩ := Option.map_eq_some_iff.1 h
    obtain ⟨n, hn, rfl⟩ := Option.map_eq_some_iff.1 hword
    obtain ⟨rfl, hlt⟩ := Json.eq_ofNat_of_toNat? hn
    rw [toJson, UInt64.toNat_ofNat_of_lt' hlt]

/-- A refusal is written as the value that it was read from. -/
theorem Refusal.toJson_of_ofJson? {v : Json} {r : Refusal} (h : ofJson? v = some r) : r.toJson = v := by
  unfold ofJson? at h
  split at h
  · obtain ⟨code, hcode, h⟩ := Option.bind_eq_some_iff.1 h
    obtain ⟨message, hmessage, h⟩ := Option.bind_eq_some_iff.1 h
    cases h
    rw [toJson, ← Json.eq_int_of_toInt? hcode, ← Json.toStr?_eq_some.1 hmessage, toSome?_getD]
  · cases h

private theorem ofOption_of_toOption? {v : Json} {error : Option Refusal}
    (h : toOption? Refusal.ofJson? v = some error) :
    Json.ofOption Refusal.toJson error = v := by
  rcases Json.toOption?_eq_some.1 h with ⟨rfl, rfl⟩ | ⟨-, r, hr, rfl⟩
  · rfl
  · exact Refusal.toJson_of_ofJson? hr

namespace Message

/-- The names of the members of a message, in their order. -/
def names : List String := ["id", "method", "params", "result", "error"]

/-- The message that asks for a method: without an id it is a notification. -/
def call (id : Id) (method : String) (params : Json) : Message :=
  match id with
  | .null => .notification method params
  | id => .request id method params

variable {v : Json} {m : Message} {id : Id} {method : String} {params : Json} {result : Option Json}
  {error : Option Refusal}

theorem call_toJson :
    (call id method params).toJson = .obj [("id", id.toJson), ("method", .str method), ("params", params)] := by
  cases id <;> rfl

/-! ### Reading -/

private theorem ofJson?_of_toOption? {v : Json} {id : Option Id} (h : toOption? Id.ofJson? v = some id) :
    Id.ofJson? v = some (id.getD .null) := by
  rcases Json.toOption?_eq_some.1 h with ⟨rfl, rfl⟩ | ⟨-, id, hid, rfl⟩
  · rfl
  · exact hid

/-- A message is read from what a record holds, and from nothing else. -/
theorem exists_of_ofJson? (h : ofJson? v = some m) : ∃ id, Id.ofJson? (held names "id" v) = some id ∧
    ((∃ method, held names "method" v = .str method ∧
        m = call id method ((held names "params" v).toSome?.getD (.arr []))) ∨
      ∃ error, held names "method" v = .null ∧ toOption? Refusal.ofJson? (held names "error" v) = some error ∧
        ((held names "result" v).toSome?.isSome || error.isSome) = true ∧
        m = .response id (held names "result" v).toSome? error) := by
  obtain ⟨members, hmembers, h⟩ := Option.bind_eq_some_iff.1 h
  have hget : ∀ name ∈ names, (members.get name).getD .null = held names name v := fun name hname =>
    Json.get_getD_of_members hmembers hname
  obtain ⟨id, hid, h⟩ := Option.bind_eq_some_iff.1 h
  obtain ⟨method, hmethod, h⟩ := Option.bind_eq_some_iff.1 h
  obtain ⟨params, hparams, h⟩ := Option.bind_eq_some_iff.1 h
  obtain ⟨result, hresult, h⟩ := Option.bind_eq_some_iff.1 h
  obtain ⟨error, herror, h⟩ := Option.bind_eq_some_iff.1 h
  rw [Members.optionalWithDefault_eq, hget _ (by decide)] at hid hparams hresult herror
  replace hmethod := Members.optional_eq_some hmethod
  rw [hget _ (by decide)] at hmethod
  rw [toOption?_some] at hparams hresult
  cases hparams
  cases hresult
  refine ⟨_, ofJson?_of_toOption? hid, ?_⟩
  rcases Json.toOption?_eq_some.1 hmethod with ⟨hnull, rfl⟩ | ⟨-, method, hstr, rfl⟩
  · dsimp only at h
    split at h
    · next hsome => exact .inr ⟨error, hnull, herror, hsome, (Option.some.inj h).symm⟩
    · cases h
  · refine .inl ⟨method, Json.toStr?_eq_some.1 hstr, ?_⟩
    generalize id.getD Id.null = i at h ⊢
    cases i <;> exact (Option.some.inj h).symm

/-! ### Writing -/

/-- What a message was read from, as a record with the members of its kind. -/
theorem toJson_of_ofJson? (h : ofJson? v = some m) :
    (held names "method" v ≠ .null ∧
        m.toJson = .obj [("id", held names "id" v), ("method", held names "method" v),
          ("params", (held names "params" v).toSome?.getD (.arr []))]) ∨
      (held names "method" v = .null ∧
        m.toJson = .obj [("id", held names "id" v), ("result", held names "result" v),
          ("error", held names "error" v)]) := by
  obtain ⟨id, hid, ⟨method, hmethod, rfl⟩ | ⟨error, hmethod, herror, -, rfl⟩⟩ := exists_of_ofJson? h
  · refine .inl ⟨by rw [hmethod]; exact Json.noConfusion, ?_⟩
    rw [call_toJson, Id.toJson_of_ofJson? hid, hmethod]
  · refine .inr ⟨hmethod, ?_⟩
    rw [toJson, Id.toJson_of_ofJson? hid, ofOption_of_toOption? herror, toSome?_getD]

private theorem exists_toOption? {v : Json} (h : Id.ofJson? v = some id) :
    ∃ found, toOption? Id.ofJson? v = some found ∧ found.getD .null = id := by
  by_cases hnull : v = .null
  · subst hnull
    cases h
    exact ⟨none, rfl, rfl⟩
  · exact ⟨some id, Json.toOption?_eq_some.2 (.inr ⟨hnull, id, h, rfl⟩), rfl⟩

private theorem ofJson?_call {v : Json} (hid : Id.ofJson? v = some id) :
    ofJson? (.obj [("id", v), ("method", .str method), ("params", params)]) =
      some (call id method (params.toSome?.getD (.arr []))) := by
  obtain ⟨found, hfound, rfl⟩ := exists_toOption? hid
  show ofMembers? ⟨false, [("id", some v), ("method", some (.str method)), ("params", some params), ("result", none),
    ("error", none)]⟩ = _
  simp only [ofMembers?, Members.optionalWithDefault_eq]
  show (toOption? Id.ofJson? v).bind _ = _
  rw [hfound]
  show (toOption? some params).bind _ = _
  rw [toOption?_some]
  rcases found with _ | _ | _ | _ <;> rfl

private theorem ofJson?_response {v result refusal : Json} (hid : Id.ofJson? v = some id)
    (herror : toOption? Refusal.ofJson? refusal = some error)
    (hsome : (result.toSome?.isSome || error.isSome) = true) :
    ofJson? (.obj [("id", v), ("result", result), ("error", refusal)]) =
      some (.response id result.toSome? error) := by
  obtain ⟨found, hfound, rfl⟩ := exists_toOption? hid
  show ofMembers? ⟨false, [("id", some v), ("method", none), ("params", none), ("result", some result),
    ("error", some refusal)]⟩ = _
  simp only [ofMembers?, Members.optionalWithDefault_eq]
  show (toOption? Id.ofJson? v).bind _ = _
  rw [hfound]
  show (toOption? some result).bind _ = _
  rw [toOption?_some]
  show (toOption? Refusal.ofJson? refusal).bind _ = _
  rw [herror]
  exact if_pos hsome

/-- Missing parameters are none, and so are those that are filled in for them. -/
private theorem toSome?_getD_params (v : Json) :
    (v.toSome?.getD (.arr [])).toSome?.getD (.arr []) = v.toSome?.getD (.arr []) := by
  cases v <;> rfl

/-- What is written for a message is read as this message. -/
theorem ofJson?_toJson (h : ofJson? v = some m) : ofJson? m.toJson = some m := by
  obtain ⟨id, hid, ⟨method, -, rfl⟩ | ⟨error, -, herror, hsome, rfl⟩⟩ := exists_of_ofJson? h
  · rw [call_toJson, Id.toJson_of_ofJson? hid, ofJson?_call hid, toSome?_getD_params]
  · rw [toJson, Id.toJson_of_ofJson? hid, toSome?_getD, ofOption_of_toOption? herror,
      ofJson?_response hid herror hsome]

/-! ### Lines -/

private theorem parse?_eq_ofJson? {line : String} {v : Json}
    (h : (Json.Document.parse? line).bind (Json.Document.members fields) = Json.members fields v) :
    parse? line = ofJson? v := by
  rw [parse?, ofJson?, h]

theorem parse?_compact (h : v.IsSettled maxDepth) : parse? v.compact = ofJson? v :=
  parse?_eq_ofJson? (Json.members_parse?_compact h)

/-- The line of a message is read as what was written on it, though its members are not sorted. -/
theorem parse?_toLine (h : ofJson? v = some m) (hv : v.IsSettled maxDepth) :
    parse? m.toLine = ofJson? m.toJson := by
  have hheld : ∀ name, (held names name v).IsSettled (maxDepth - 1) := fun name => Json.isSettled_held hv
  have hparams : ((held names "params" v).toSome?.getD (.arr [])).IsSettled (maxDepth - 1) := by
    have hparams := hheld "params"
    generalize held names "params" v = params at hparams ⊢
    cases params with
    | null => exact trivial
    | _ => exact hparams
  rcases toJson_of_ofJson? h with ⟨-, htext⟩ | ⟨-, htext⟩
  · rw [toLine, htext]
    exact parse?_eq_ofJson? (Json.members_parse?_obj ⟨hheld _, hheld _, hparams, trivial⟩)
  · rw [toLine, htext]
    exact parse?_eq_ofJson? (Json.members_parse?_obj ⟨hheld _, hheld _, hheld _, trivial⟩)

/-! ### The three kinds -/

private theorem id_eq_null_iff {v : Json} (h : Id.ofJson? v = some id) : id = .null ↔ v = .null := by
  constructor
  · rintro rfl
    exact (Id.toJson_of_ofJson? h).symm
  · rintro rfl
    exact (Option.some.inj h).symm

private theorem isSome_iff {v : Json} (herror : toOption? Refusal.ofJson? v = some error) :
    error.isSome = true ↔ v ≠ .null := by
  rcases Json.toOption?_eq_some.1 herror with ⟨rfl, rfl⟩ | ⟨hne, r, -, rfl⟩
  · simp
  · simp [hne]

/-- Which of the three a message is. -/
theorem kind_of_ofJson? (h : ofJson? v = some m) :
    (held names "method" v ≠ .null ∧ held names "id" v ≠ .null ∧
        ∃ id method params, m = .request id method params) ∨
      (held names "method" v ≠ .null ∧ held names "id" v = .null ∧
        ∃ method params, m = .notification method params) ∨
      (held names "method" v = .null ∧ (held names "result" v ≠ .null ∨ held names "error" v ≠ .null) ∧
        ∃ id result error, m = .response id result error) := by
  obtain ⟨id, hid, ⟨method, hmethod, rfl⟩ | ⟨error, hmethod, herror, hsome, rfl⟩⟩ := exists_of_ofJson? h
  · have hne : held names "method" v ≠ .null := by
      rw [hmethod]
      exact Json.noConfusion
    rw [ne_eq (held names "id" v), ← id_eq_null_iff hid]
    cases id with
    | null => exact .inr (.inl ⟨hne, rfl, _, _, rfl⟩)
    | number n => exact .inl ⟨hne, Id.noConfusion, _, _, _, rfl⟩
    | text s => exact .inl ⟨hne, Id.noConfusion, _, _, _, rfl⟩
  · rw [Bool.or_eq_true, toSome?_isSome_iff, isSome_iff herror] at hsome
    exact .inr (.inr ⟨hmethod, hsome, _, _, _, rfl⟩)

end Message

end Stratum

end MergedMining
