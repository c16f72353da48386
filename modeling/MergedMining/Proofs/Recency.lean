import MergedMining.Recency
import Mathlib.Data.Finset.Dedup
import Mathlib.Data.Finset.Card
import Std.Data.TreeMap.Lemmas

/-!
# What is remembered of a history

The byte strings that a `Recency` remembers are the most recent of all that were touched: those that a history,
latest first, leaves when every repetition is taken out, up to the capacity (`touch_remembers`).  So a byte
string that was touched and is no longer remembered was followed by as many other ones as there is room for
(`exists_others_of_not_mem`).
-/

namespace MergedMining

namespace Recency

variable {r : Recency} {entries : List (Nat × Bytes)} {hs : List Bytes} {key : Bytes}

/-! ### The entries -/

/-- The entries of a `Recency`, latest first, each a time and the byte string that was touched then. -/
structure Tracks (r : Recency) (entries : List (Nat × Bytes)) : Prop where
  descending : entries.Pairwise fun a b => b.1 < a.1
  below : ∀ e ∈ entries, e.1 < r.clock
  distinct : (entries.map Prod.snd).Nodup
  stamps : ∀ key stamp, r.stamps[key]? = some stamp ↔ (stamp, key) ∈ entries
  order : ∀ stamp key, r.order[stamp]? = some key ↔ (stamp, key) ∈ entries
  size : r.stamps.size = entries.length

theorem tracks_ofCapacity (capacity : Nat) : (ofCapacity capacity).Tracks [] where
  descending := .nil
  below := by simp
  distinct := by simp
  stamps := by simp [ofCapacity]
  order := by simp [ofCapacity]
  size := by simp [ofCapacity]

private theorem stamp_unique (h : r.Tracks entries) {a b : Nat} (ha : (a, key) ∈ entries) (hb : (b, key) ∈ entries) :
    a = b := by
  have hsa := (h.stamps key a).2 ha
  rw [(h.stamps key b).2 hb] at hsa
  exact (Option.some.inj hsa).symm

private theorem key_unique (h : r.Tracks entries) {stamp : Nat} {a b : Bytes} (ha : (stamp, a) ∈ entries)
    (hb : (stamp, b) ∈ entries) : a = b := by
  have hsa := (h.order stamp a).2 ha
  rw [(h.order stamp b).2 hb] at hsa
  exact (Option.some.inj hsa).symm

private theorem length_filter_ne (h : (entries.map Prod.snd).Nodup) {stamp : Nat} (hmem : (stamp, key) ∈ entries) :
    (entries.filter (·.2 ≠ key)).length + 1 = entries.length := by
  induction entries with
  | nil => simp at hmem
  | cons e entries ih =>
    rw [List.map_cons, List.nodup_cons] at h
    rcases List.mem_cons.1 hmem with rfl | hmem
    · have hall : entries.filter (·.2 ≠ key) = entries := by
        refine List.filter_eq_self.2 fun e he => ?_
        have hne : e.2 ≠ key := fun heq => h.1 (List.mem_map.2 ⟨e, he, heq⟩)
        simpa using hne
      rw [List.filter_cons_of_neg (by simp), hall, List.length_cons]
    · have hne : e.2 ≠ key := fun heq => h.1 (List.mem_map.2 ⟨_, hmem, heq.symm⟩)
      rw [List.filter_cons_of_pos (by simpa using hne), List.length_cons, ih h.2 hmem, List.length_cons]

theorem tracks_forget (h : r.Tracks entries) {stamp : Nat} (hmem : (stamp, key) ∈ entries) :
    (r.forget stamp key).Tracks (entries.filter (·.2 ≠ key)) where
  descending := h.descending.filter _
  below e he := h.below e (List.mem_filter.1 he).1
  distinct := h.distinct.sublist (List.filter_sublist.map _)
  stamps k s := by
    simp only [forget, Std.TreeMap.getElem?_erase, Std.LawfulEqOrd.compare_eq_iff_eq, List.mem_filter]
    by_cases hk : key = k
    · simp [hk]
    · simp [hk, Ne.symm hk, h.stamps]
  order s k := by
    simp only [forget, Std.TreeMap.getElem?_erase, Std.LawfulEqOrd.compare_eq_iff_eq, List.mem_filter]
    by_cases hs : stamp = s
    · -- no other byte string was touched at that time
      subst hs
      simp only [if_true, reduceCtorEq, decide_eq_true_eq, false_iff, not_and]
      exact fun hk hne => hne (key_unique h hk hmem)
    · have hne : (s, k) ∈ entries → k ≠ key := fun hk heq => hs (stamp_unique h hmem (heq ▸ hk))
      simp only [hs, if_false, h.order, decide_eq_true_eq]
      exact ⟨fun hk => ⟨hk, hne hk⟩, And.left⟩
  size := by
    have hcontains : r.stamps.contains key = true := by
      rw [Std.TreeMap.contains_eq_isSome_getElem?, (h.stamps key stamp).2 hmem]
      rfl
    have hlen := length_filter_ne h.distinct hmem
    simp only [forget, Std.TreeMap.size_erase, hcontains, if_true, h.size]
    omega

theorem tracks_stamp (h : r.Tracks entries) (hnew : key ∉ entries.map Prod.snd) :
    (r.stamp key).Tracks ((r.clock, key) :: entries) where
  descending := List.pairwise_cons.2 ⟨h.below, h.descending⟩
  below e he := by
    rcases List.mem_cons.1 he with rfl | he
    · exact Nat.lt_succ_self _
    · exact Nat.lt_succ_of_lt (h.below e he)
  distinct := List.nodup_cons.2 ⟨hnew, h.distinct⟩
  stamps k s := by
    simp only [stamp, Std.TreeMap.getElem?_insert, Std.LawfulEqOrd.compare_eq_iff_eq, List.mem_cons, Prod.mk.injEq]
    by_cases hk : key = k
    · subst hk
      have hnot : (s, key) ∉ entries := fun hs => hnew (List.mem_map_of_mem hs)
      simp [hnot, eq_comm]
    · simp [hk, Ne.symm hk, h.stamps]
  order s k := by
    simp only [stamp, Std.TreeMap.getElem?_insert, Std.LawfulEqOrd.compare_eq_iff_eq, List.mem_cons, Prod.mk.injEq]
    by_cases hs : r.clock = s
    · subst hs
      have hnot : (r.clock, k) ∉ entries := fun hk => Nat.lt_irrefl _ (h.below _ hk)
      simp [hnot, eq_comm]
    · simp [hs, Ne.symm hs, h.order]
  size := by
    have hcontains : r.stamps.contains key = false := by
      rw [Std.TreeMap.contains_eq_isSome_getElem?]
      rcases hget : r.stamps[key]? with _ | s
      · rfl
      · exact absurd (List.mem_map_of_mem ((h.stamps key s).1 hget)) hnew
    simp [stamp, Std.TreeMap.size_insert, hcontains, h.size]

private theorem minKey?_order {last : Nat × Bytes} (h : r.Tracks (entries ++ [last])) :
    r.order.minKey? = some last.1 := by
  have hlast : r.order[last.1]? = some last.2 := (h.order _ _).2 (by simp)
  rw [Std.TreeMap.minKey?_eq_some_iff_mem_and_forall]
  constructor
  · rw [Std.TreeMap.mem_iff_isSome_getElem?, hlast]
    rfl
  · intro k hk
    rw [Std.TreeMap.mem_iff_isSome_getElem?, Option.isSome_iff_exists] at hk
    obtain ⟨b, hb⟩ := hk
    rw [Nat.isLE_compare]
    rcases List.mem_append.1 ((h.order k b).1 hb) with hfront | hback
    · exact Nat.le_of_lt ((List.pairwise_append.1 h.descending).2.2 _ hfront last (by simp))
    · have heq : (k, b) = last := List.mem_singleton.1 hback
      exact Nat.le_of_eq (congrArg Prod.fst heq).symm

theorem tracks_dropOldest (h : r.Tracks entries) (hne : entries ≠ []) : r.dropOldest.Tracks entries.dropLast := by
  obtain ⟨front, last, rfl⟩ : ∃ front last, entries = front ++ [last] :=
    ⟨entries.dropLast, entries.getLast hne, (List.dropLast_concat_getLast hne).symm⟩
  have hlast : r.order[last.1]? = some last.2 := (h.order _ _).2 (by simp)
  -- what is forgotten with the last entry stands in no other one
  have hfront : (front ++ [last]).filter (·.2 ≠ last.2) = front := by
    have hdistinct := h.distinct
    rw [List.map_append, List.nodup_append] at hdistinct
    rw [List.filter_append, List.filter_eq_self.2]
    · simp
    · intro e he
      have hne : e.2 ≠ last.2 := hdistinct.2.2 _ (List.mem_map_of_mem he) _ (by simp)
      simpa using hne
  have hmem : (last.1, last.2) ∈ front ++ [last] := by simp
  have hforget := tracks_forget h hmem
  rw [hfront] at hforget
  rw [List.dropLast_concat, dropOldest, minKey?_order h]
  simp only [hlast]
  exact hforget

/-! ### One touch -/

/-- The remembered byte strings after one more was touched, latest first. -/
def touched (capacity : Nat) (keys : List Bytes) (key : Bytes) : List Bytes :=
  if key ∈ keys then key :: keys.filter (· ≠ key)
  else if keys.length < capacity then key :: keys
  else key :: keys.dropLast

theorem touch_tracks (h : r.Tracks entries) (hcapacity : 0 < r.capacity) (key : Bytes) :
    (r.touch key).1 = decide (key ∈ entries.map Prod.snd) ∧ ∃ entries', (r.touch key).2.Tracks entries' ∧
      entries'.map Prod.snd = touched r.capacity (entries.map Prod.snd) key := by
  unfold touch touched
  rcases hget : r.stamps[key]? with _ | old
  · have hnew : key ∉ entries.map Prod.snd := by
      intro hmem
      obtain ⟨⟨s, k⟩, he, rfl⟩ := List.mem_map.1 hmem
      rw [(h.stamps k s).2 he] at hget
      cases hget
    refine ⟨by simp [hnew], ?_⟩
    rw [if_neg hnew, List.length_map, ← h.size]
    by_cases hroom : r.stamps.size < r.capacity
    · simp only [hroom, if_true]
      exact ⟨_, tracks_stamp h hnew, rfl⟩
    · have hne : entries ≠ [] := by
        rintro rfl
        have := h.size
        simp only [List.length_nil] at this
        omega
      have hsub : (entries.dropLast.map Prod.snd).Sublist (entries.map Prod.snd) := (List.dropLast_sublist _).map _
      simp only [hroom, if_false]
      exact ⟨_, tracks_stamp (tracks_dropOldest h hne) fun hmem => hnew (hsub.mem hmem), by simp [List.map_dropLast]⟩
  · have hmem : (old, key) ∈ entries := (h.stamps key old).1 hget
    have hkey : key ∈ entries.map Prod.snd := List.mem_map_of_mem hmem
    refine ⟨by simp [hkey], _, tracks_stamp (tracks_forget h hmem) (by simp), ?_⟩
    rw [if_pos hkey, List.map_cons, List.filter_map]
    rfl

/-! ### The history -/

/-- A history, latest first, without repetitions: of each byte string the latest touch. -/
def recent : List Bytes → List Bytes
  | [] => []
  | key :: hs => key :: (recent hs).filter (· ≠ key)

theorem mem_recent : key ∈ recent hs ↔ key ∈ hs := by
  induction hs with
  | nil => rfl
  | cons h hs ih =>
    by_cases hkey : key = h
    · simp [recent, hkey]
    · simp [recent, hkey, ih]

theorem nodup_recent (hs : List Bytes) : (recent hs).Nodup := by
  induction hs with
  | nil => exact .nil
  | cons h hs ih => exact List.nodup_cons.2 ⟨by simp, ih.filter _⟩

private theorem filter_ne_of_not_mem {l : List Bytes} (h : key ∉ l) : l.filter (· ≠ key) = l := by
  refine List.filter_eq_self.2 fun a ha => ?_
  have hne : a ≠ key := fun heq => h (heq ▸ ha)
  simpa using hne

private theorem take_filter_ne_of_not_mem {l : List Bytes} {n : Nat} (h : key ∉ l.take n) :
    (l.filter (· ≠ key)).take n = l.take n := by
  induction l generalizing n with
  | nil => rfl
  | cons a l ih =>
    rcases n with _ | n
    · rfl
    · rw [List.take_succ_cons, List.mem_cons, not_or] at h
      rw [List.filter_cons_of_pos (by simpa using Ne.symm h.1), List.take_succ_cons, List.take_succ_cons, ih h.2]

private theorem take_filter_ne_of_mem {l : List Bytes} {n : Nat} (hl : l.Nodup) (h : key ∈ l.take (n + 1)) :
    (l.filter (· ≠ key)).take n = (l.take (n + 1)).filter (· ≠ key) := by
  induction l generalizing n with
  | nil => simp at h
  | cons a l ih =>
    rw [List.nodup_cons] at hl
    by_cases ha : a = key
    · subst ha
      rw [List.take_succ_cons, List.filter_cons_of_neg (by simp), List.filter_cons_of_neg (by simp),
        filter_ne_of_not_mem hl.1, filter_ne_of_not_mem fun hmem => hl.1 (List.mem_of_mem_take hmem)]
    · have hmem : key ∈ l.take n := by
        rw [List.take_succ_cons, List.mem_cons] at h
        exact h.resolve_left (Ne.symm ha)
      rcases n with _ | n
      · simp at hmem
      · rw [List.filter_cons_of_pos (by simpa using ha), List.take_succ_cons, List.take_succ_cons,
          List.filter_cons_of_pos (by simpa using ha), ih hl.2 hmem]

/-- A touch does to what is remembered of a history what it does to the history. -/
theorem touched_take_recent {capacity : Nat} (hcapacity : 0 < capacity) (hs : List Bytes) (key : Bytes) :
    touched capacity ((recent hs).take capacity) key = (recent (key :: hs)).take capacity := by
  obtain ⟨n, rfl⟩ : ∃ n, capacity = n + 1 := ⟨capacity - 1, by omega⟩
  rw [recent, List.take_succ_cons, touched]
  by_cases hmem : key ∈ (recent hs).take (n + 1)
  · -- a repetition moves to the front, and nothing is pushed out
    rw [if_pos hmem, take_filter_ne_of_mem (nodup_recent hs) hmem]
  · have hless : key ∉ (recent hs).take n := fun h => hmem (List.take_subset_take_left _ (Nat.le_succ n) h)
    rw [if_neg hmem, take_filter_ne_of_not_mem hless]
    by_cases hroom : ((recent hs).take (n + 1)).length < n + 1
    · rw [List.length_take] at hroom
      rw [if_pos (by rwa [List.length_take]), List.take_of_length_le (by omega), List.take_of_length_le (by omega)]
    · rw [List.length_take] at hroom
      rw [if_neg (by rwa [List.length_take]), List.dropLast_eq_take, List.take_take, List.length_take,
        show min (min (n + 1) (recent hs).length - 1) (n + 1) = n by omega]

/-- The recent byte strings of a history are remembered, as many as there is room for. -/
def Remembers (r : Recency) (hs : List Bytes) : Prop :=
  ∃ entries, r.Tracks entries ∧ entries.map Prod.snd = (recent hs).take r.capacity

theorem remembers_ofCapacity (capacity : Nat) : (ofCapacity capacity).Remembers [] :=
  ⟨[], tracks_ofCapacity capacity, by simp [recent]⟩

theorem capacity_touch (r : Recency) (key : Bytes) : (r.touch key).2.capacity = r.capacity := by
  unfold touch
  rcases r.stamps[key]? with _ | old
  · dsimp only
    split
    · rfl
    · unfold dropOldest
      split
      · rfl
      · split <;> rfl
  · rfl

/-- A touch finds a byte string exactly if it is among the recent ones, and is added to the history. -/
theorem touch_remembers (h : r.Remembers hs) (hcapacity : 0 < r.capacity) (key : Bytes) :
    (r.touch key).1 = decide (key ∈ (recent hs).take r.capacity) ∧ (r.touch key).2.Remembers (key :: hs) := by
  obtain ⟨entries, htracks, hkeys⟩ := h
  obtain ⟨hfound, entries', htracks', hkeys'⟩ := touch_tracks htracks hcapacity key
  rw [hkeys] at hfound hkeys'
  refine ⟨hfound, entries', htracks', ?_⟩
  rw [hkeys', capacity_touch, touched_take_recent hcapacity]

/-! ### What was forgotten -/

private theorem recent_append (newer older : List Bytes) :
    recent (newer ++ older) = recent newer ++ (recent older).filter (· ∉ newer) := by
  induction newer with
  | nil => exact (List.filter_eq_self.2 fun _ _ => by simp).symm
  | cons k newer ih =>
    simp only [List.cons_append, recent, ih, List.filter_append, List.filter_filter, List.cons.injEq, true_and,
      List.append_cancel_left_eq]
    refine List.filter_congr fun a _ => ?_
    by_cases hk : a = k
    · simp [hk]
    · simp [hk]

/-- What was touched is remembered as long as fewer other byte strings were touched since than there is room for. -/
theorem mem_take_recent_iff {capacity : Nat} {newer older : List Bytes} (hnew : key ∉ newer) :
    key ∈ (recent (newer ++ key :: older)).take capacity ↔ (recent newer).length < capacity := by
  rw [recent_append, recent, List.filter_cons_of_pos (by simpa using hnew), List.take_append, List.mem_append]
  have hfront : key ∉ (recent newer).take capacity := fun h => hnew (mem_recent.1 (List.mem_of_mem_take h))
  rcases hroom : capacity - (recent newer).length with _ | n
  · simp only [hfront, List.take_zero, List.not_mem_nil, or_self, false_iff]
    omega
  · simp only [List.take_succ_cons, List.mem_cons_self, or_true, true_iff]
    omega

theorem recent_of_nodup {l : List Bytes} (h : l.Nodup) : recent l = l := by
  induction l with
  | nil => rfl
  | cons a l ih =>
    rw [List.nodup_cons] at h
    rw [recent, ih h.2, filter_ne_of_not_mem h.1]

/-- What counts is what came after the latest touch. -/
private theorem exists_latest (newer older : List Bytes) (key : Bytes) : ∃ front back,
    newer ++ key :: older = front ++ key :: back ∧ key ∉ front ∧ front ⊆ newer := by
  by_cases hmem : key ∈ newer
  · obtain ⟨front, back, rfl, hfront⟩ := List.eq_append_cons_of_mem hmem
    exact ⟨front, back ++ key :: older, by simp, hfront, List.subset_append_left _ _⟩
  · exact ⟨newer, older, rfl, hmem, fun _ => id⟩

/-- Behind a touch that is no longer remembered came as many other byte strings as there is room for. -/
theorem exists_others_of_not_mem {capacity : Nat} {newer older : List Bytes}
    (h : key ∉ (recent (newer ++ key :: older)).take capacity) :
    ∃ others : List Bytes, others.Nodup ∧ others.length = capacity ∧
      ∀ other ∈ others, other ∈ newer ∧ other ≠ key := by
  obtain ⟨front, back, hsplit, hfront, hsub⟩ := exists_latest newer older key
  rw [hsplit] at h
  have hlen := Nat.le_of_not_lt (mt (mem_take_recent_iff hfront).2 h)
  refine ⟨(recent front).take capacity, (nodup_recent front).sublist (List.take_sublist _ _),
    List.length_take_of_le hlen, ?_⟩
  intro other hother
  have hother := mem_recent.1 (List.mem_of_mem_take hother)
  exact ⟨hsub hother, fun heq => hfront (heq ▸ hother)⟩

theorem length_recent (hs : List Bytes) : (recent hs).length = hs.toFinset.card := by
  have hsame : (recent hs).toFinset = hs.toFinset := by
    ext key
    simp [mem_recent]
  rw [← List.toFinset_card_of_nodup (nodup_recent hs), hsame]

/-- What is remembered of a history was touched with fewer other byte strings after it than there is room for. -/
theorem mem_take_recent_iff_exists {capacity : Nat} : key ∈ (recent hs).take capacity ↔
    ∃ newer older, hs = newer ++ key :: older ∧ (newer.toFinset.erase key).card < capacity := by
  constructor
  · intro h
    obtain ⟨newer, older, rfl, hnew⟩ := List.eq_append_cons_of_mem (mem_recent.1 (List.mem_of_mem_take h))
    have hroom := (mem_take_recent_iff hnew).1 h
    rw [length_recent] at hroom
    exact ⟨newer, older, rfl, lt_of_le_of_lt (Finset.card_le_card (Finset.erase_subset _ _)) hroom⟩
  · rintro ⟨newer, older, rfl, hroom⟩
    obtain ⟨front, back, hsplit, hfront, hsub⟩ := exists_latest newer older key
    rw [hsplit, mem_take_recent_iff hfront, length_recent]
    have hothers : front.toFinset ⊆ newer.toFinset.erase key := by
      intro other hother
      have hmem : other ∈ front := List.mem_toFinset.1 hother
      have hne : other ≠ key := fun heq => hfront (heq ▸ hmem)
      exact Finset.mem_erase.2 ⟨hne, List.mem_toFinset.2 (hsub hmem)⟩
    exact lt_of_le_of_lt (Finset.card_le_card hothers) hroom

end Recency

end MergedMining
