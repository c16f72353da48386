import MergedMining.Proofs.Json.Values
import MergedMining.Proofs.Outcome
import MergedMining.Proofs.Stratum.Field
import MergedMining.Stratum.Notify
import MergedMining.Stratum.Params

/-!
# Lists of fixed length

Four of the things that miner and pool tell each other are lists whose places have a meaning.  Each of them is
read back from what is written for it, and from no list of another length (`Positional`).
-/

namespace MergedMining

namespace Stratum

open Json (IsSettled maxDepth)

/-- A reader and a writer of lists that belong together: what is written is read again, also from its text, and
a list is only read if it has one of these lengths. -/
structure Positional {α : Type} (write : α → Json) (read : Json → Option α) (lengths : List Nat) : Prop where
  read_write : ∀ x, read (write x) = some x
  read_text : ∀ x, (Json.parse? (write x).compact).bind read = some x
  read_length : ∀ items, items.length ∉ lengths → read (.arr items) = none

theorem Positional.of_isSettled {α : Type} {write : α → Json} {read : Json → Option α} {lengths : List Nat}
    (hread : ∀ x, read (write x) = some x) (hsettled : ∀ x, (write x).IsSettled maxDepth)
    (hlength : ∀ items x, read (.arr items) = some x → items.length ∈ lengths) : Positional write read lengths where
  read_write := hread
  read_text x := by rw [Json.parse?_compact_of_isSettled (hsettled x), Option.bind_some, hread]
  read_length items hitems := Option.eq_none_iff_forall_not_mem.2 fun x hx => hitems (hlength items x hx)

/-! ### Single places -/

variable {α : Type}

private theorem field?_str {parse : String → Except FieldFault α} {s : String} {x : α} (h : parse s = .ok x) :
    field? parse (.str s) = some x := by
  rw [field?, Json.toStr?, Option.bind_some, h]
  rfl

private theorem toList?_map {read : Json → Option α} {write : α → Json} (h : ∀ x, read (write x) = some x)
    (xs : List α) :
    Json.toList? read (.arr (xs.map write)) = some xs := by
  rw [Json.toList?, Json.mapM_map (k := id) fun x _ => h x, List.map_id]

private theorem isSettled_map (write : α → Json) {room : Nat} (h : ∀ x, (write x).IsSettled room)
    (xs : List α) : (Json.arr (xs.map write)).IsSettled (room + 1) := by
  refine Json.areSettled_iff.2 fun v hv => ?_
  obtain ⟨x, -, rfl⟩ := List.mem_map.1 hv
  exact h x

/-! ### The four lists -/

theorem Notify.positional : Positional toJson ofJson? [9] := by
  refine .of_isSettled (fun n => ?_) (fun n => ?_) fun items n h => ?_
  · simp only [toJson, ofJson?, field?_str (JobId.parse_toText _), field?_str (Word.parse_toText _), Json.toStr?,
      Json.toBool?, toList?_map fun s => (rfl : Json.toStr? (.str s) = some s)]
    rfl
  · have hbranches : (Json.arr (n.branches.map .str)).IsSettled (maxDepth - 1) :=
      isSettled_map .str (fun _ => trivial) _
    exact ⟨trivial, trivial, trivial, trivial, hbranches, trivial, trivial, trivial, trivial, trivial⟩
  · unfold ofJson? at h
    split at h
    · next heq =>
      cases heq
      exact List.mem_singleton_self 9
    · cases h

theorem SubscribeResult.positional : Positional toJson ofJson? [3] := by
  refine .of_isSettled (fun r => ?_) (fun r => ?_) fun items r h => ?_
  · simp only [toJson, ofJson?, field?_str (Extranonce.parse_toText _), Json.toUInt32?_ofNat,
      toList?_map fun p : String × String => (rfl : pair? (.arr [.str p.1, .str p.2]) = some p)]
    rfl
  · have hpair : ∀ p : String × String, (Json.arr [.str p.1, .str p.2]).IsSettled (maxDepth - 2) :=
      fun _ => ⟨trivial, trivial, trivial⟩
    have hpairs : (Json.arr (r.subscriptions.map fun p => .arr [.str p.1, .str p.2])).IsSettled (maxDepth - 1) :=
      isSettled_map _ hpair _
    exact ⟨hpairs, trivial, Json.inRange_toNat r.extranonce2Size.toUInt64, trivial⟩
  · unfold ofJson? at h
    split at h
    · next heq =>
      cases heq
      exact List.mem_singleton_self 3
    · cases h

theorem Authorize.positional : Positional toJson (fun v => (ofJson v).toOption) [1, 2] := by
  refine .of_isSettled (fun a => ?_) (fun a => ?_) fun items a h => ?_
  · obtain ⟨username, _ | password⟩ := a <;> rfl
  · obtain ⟨username, _ | password⟩ := a
    · exact ⟨trivial, trivial⟩
    · exact ⟨trivial, trivial, trivial⟩
  · unfold ofJson at h
    split at h
    · next heq => cases heq; simp
    · next heq => cases heq; simp
    · next heq => cases heq; simp
    · cases h

private theorem fieldAt_eq_ok {items : List Json} {position : Nat} {parse : String → Except FieldFault α} {s : String}
    {x : α} (hitem : items[position]? = some (.str s)) (h : parse s = .ok x) :
    Submit.fieldAt items position parse = .ok x := by
  unfold Submit.fieldAt Submit.item
  rw [hitem]
  show (parse s).mapError ParamFault.field = .ok x
  rw [h]
  rfl

private theorem lt_length_of_fieldAt {items : List Json} {position : Nat} {parse : String → Except FieldFault α}
    {x : α} (h : Submit.fieldAt items position parse = .ok x) :
    position < items.length := by
  by_contra hlength
  rw [Submit.fieldAt, Submit.item, List.getElem?_eq_none (by omega)] at h
  cases h

theorem Submit.positional : Positional toJson (fun v => (ofJson v).toOption) [5] := by
  refine .of_isSettled (fun s => ?_) (fun s => ?_) fun items s h => ?_
  · have hread : ofJson s.toJson = .ok s := by
      rw [toJson, ofJson, Outcome.bind_eq_ok]
      refine ⟨s.worker, rfl, Outcome.bind_eq_ok.2 ⟨s.jobId, fieldAt_eq_ok rfl (JobId.parse_toText _), ?_⟩⟩
      refine Outcome.bind_eq_ok.2 ⟨s.extranonce2, fieldAt_eq_ok rfl (Extranonce.parse_toText _), ?_⟩
      refine Outcome.bind_eq_ok.2 ⟨s.ntime, fieldAt_eq_ok rfl (Word.parse_toText _), ?_⟩
      exact Outcome.bind_eq_ok.2 ⟨s.nonce, fieldAt_eq_ok rfl (Word.parse_toText _), rfl⟩
    rw [hread]
    rfl
  · exact ⟨trivial, trivial, trivial, trivial, trivial, trivial⟩
  · rcases hread : ofJson (.arr items) with e | s'
    · rw [hread] at h
      cases h
    · obtain ⟨_, -, hread⟩ := Outcome.bind_eq_ok.1 hread
      obtain ⟨_, -, hread⟩ := Outcome.bind_eq_ok.1 hread
      obtain ⟨_, -, hread⟩ := Outcome.bind_eq_ok.1 hread
      obtain ⟨_, -, hread⟩ := Outcome.bind_eq_ok.1 hread
      obtain ⟨_, hnonce, hread⟩ := Outcome.bind_eq_ok.1 hread
      have hat := lt_length_of_fieldAt hnonce
      split at hread
      · cases hread
      · rw [List.mem_singleton]
        omega

/-- What miner and pool tell each other in lists is read back from what is written for it, and from no list of another
length. -/
theorem survive_wire :
    Positional Notify.toJson Notify.ofJson? [9] ∧
      Positional Submit.toJson (fun v => (Submit.ofJson v).toOption) [5] ∧
      Positional SubscribeResult.toJson SubscribeResult.ofJson? [3] ∧
      Positional Authorize.toJson (fun v => (Authorize.ofJson v).toOption) [1, 2] :=
  ⟨Notify.positional, Submit.positional, SubscribeResult.positional, Authorize.positional⟩

end Stratum

end MergedMining
