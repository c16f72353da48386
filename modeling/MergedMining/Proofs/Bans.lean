import Mathlib.Data.List.Induction
import MergedMining.Bans
import MergedMining.Proofs.Registry

/-!
# Who is banned

An address is banned exactly if it was banned outright or was struck as often as the limit says, at least once
(`isBanned_after_iff`).  What is done to one address leaves the others as they are (`isBanned_call_of_ne`,
`count_call_of_ne`), and no counter comes to the limit (`count_after_lt`).
-/

namespace MergedMining

namespace Bans

variable {b : Bans} {ip other : Ip} {limit : Nat}

/-! ### One address and the others -/

theorem isBanned_eq_true_iff : b.isBanned ip = true ↔ ip ∈ b.banned := List.contains_iff_mem

theorem isBanned_cons_iff (banned : List Ip) (strikes : List (Ip × Nat)) :
    isBanned ⟨limit, ip :: banned, strikes⟩ other = true ↔ other = ip ∨ other ∈ banned :=
  isBanned_eq_true_iff.trans List.mem_cons

theorem isBanned_ban_iff : (b.ban ip).isBanned other = true ↔ other = ip ∨ b.isBanned other = true := by
  rw [isBanned_eq_true_iff (b := b)]
  unfold ban
  split
  · next hbanned =>
    rw [isBanned_eq_true_iff] at hbanned ⊢
    exact ⟨.inr, fun h => h.elim (fun heq => heq ▸ hbanned) id⟩
  · exact isBanned_cons_iff b.banned b.strikes

@[simp]
theorem count_ban (b : Bans) (ip other : Ip) : (b.ban ip).count other = b.count other := by
  unfold ban
  split <;> rfl

@[simp]
theorem limit_ban (b : Bans) (ip : Ip) : (b.ban ip).limit = b.limit := by
  unfold ban
  split <;> rfl

theorem count_others_of_ne (hne : other ≠ ip) (banned : List Ip) :
    count ⟨limit, banned, b.others ip⟩ other = b.count other :=
  congrArg (Option.getD · 0) (lookup_filter_of_ne hne b.strikes)

theorem count_others_self (banned : List Ip) : count ⟨limit, banned, b.others ip⟩ ip = 0 := by
  have hnone : (b.others ip).lookup ip = none := by
    rw [List.lookup_eq_none_iff]
    intro entry hentry
    simpa using Ne.symm (by simpa using (List.mem_filter.1 hentry).2)
  rw [count, hnone]
  rfl

/-- The outcomes of a strike. -/
inductive Struck (b : Bans) (ip : Ip) : Consequence × Bans → Prop
  | already (hbanned : b.isBanned ip = true) : Struck b ip (.ban, b)
  | warned (hfree : b.isBanned ip = false) (hfew : b.count ip + 1 < b.limit) :
      Struck b ip (.warn, { b with strikes := (ip, b.count ip + 1) :: b.others ip })
  | banned (hfree : b.isBanned ip = false) (hmany : b.limit ≤ b.count ip + 1) :
      Struck b ip (.ban, { b with strikes := b.others ip, banned := ip :: b.banned })

theorem strike_struck (b : Bans) (ip : Ip) : b.Struck ip (b.strike ip) := by
  unfold strike
  split
  · next hbanned => exact .already hbanned
  · next hfree =>
    have hfree : b.isBanned ip = false := by simpa using hfree
    dsimp only
    split
    · next hfew => exact .warned hfree hfew
    · next hmany => exact .banned hfree (Nat.not_lt.1 hmany)

/-- A strike answers whether the address is banned after it. -/
theorem strike_fst_eq_ban_iff (b : Bans) (ip : Ip) :
    (b.strike ip).1 = .ban ↔ (b.strike ip).2.isBanned ip = true := by
  have hstruck := b.strike_struck ip
  generalize b.strike ip = result at hstruck
  cases hstruck with
  | already hbanned => exact iff_of_true rfl hbanned
  | warned hfree => exact iff_of_false nofun (Bool.eq_false_iff.1 hfree)
  | banned => exact iff_of_true rfl ((isBanned_cons_iff _ _).2 (.inl rfl))

/-! ### Calls -/

/-- What can be asked for about an address. -/
inductive Call
  | strike (ip : Ip)
  | ban (ip : Ip)
  deriving DecidableEq

/-- The address that a call is about. -/
def Call.address : Call → Ip
  | .strike ip => ip
  | .ban ip => ip

/-- What is left of a call. -/
def call (b : Bans) : Call → Bans
  | .strike ip => (b.strike ip).2
  | .ban ip => b.ban ip

/-- What is left of calls in turn. -/
def run (b : Bans) (calls : List Call) : Bans := calls.foldl call b

variable {c : Call} {calls : List Call}

theorem run_append (b : Bans) (calls calls' : List Call) : b.run (calls ++ calls') = (b.run calls).run calls' :=
  List.foldl_append

theorem limit_call (b : Bans) (c : Call) : (b.call c).limit = b.limit := by
  cases c with
  | strike ip =>
    have hstruck := b.strike_struck ip
    rw [Bans.call]
    generalize b.strike ip = result at hstruck
    cases hstruck with
    | _ => rfl
  | ban ip => exact limit_ban b ip

theorem isBanned_call_of_ne (b : Bans) (hne : c.address ≠ other) : (b.call c).isBanned other = b.isBanned other := by
  cases c with
  | strike ip =>
    have hstruck := b.strike_struck ip
    rw [Bans.call]
    generalize b.strike ip = result at hstruck
    cases hstruck with
    | already => rfl
    | warned => rfl
    | banned =>
      rw [Bool.eq_iff_iff, isBanned_cons_iff, isBanned_eq_true_iff]
      exact or_iff_right hne.symm
  | ban ip =>
    rw [Bool.eq_iff_iff, Bans.call, isBanned_ban_iff]
    exact or_iff_right hne.symm

theorem isBanned_call_of_isBanned (h : b.isBanned ip = true) (c : Call) : (b.call c).isBanned ip = true := by
  cases c with
  | strike other =>
    have hstruck := b.strike_struck other
    rw [call]
    generalize b.strike other = result at hstruck
    cases hstruck with
    | already => exact h
    | warned => exact h
    | banned => exact (isBanned_cons_iff _ _).2 (.inr (isBanned_eq_true_iff.1 h))
  | ban other => exact isBanned_ban_iff.2 (.inr h)

theorem count_call_of_ne (b : Bans) (hne : c.address ≠ other) : (b.call c).count other = b.count other := by
  cases c with
  | strike ip =>
    have hstruck := b.strike_struck ip
    rw [Bans.call]
    generalize b.strike ip = result at hstruck
    cases hstruck with
    | already => rfl
    | warned =>
      have hmissed : (other == ip) = false := beq_false_of_ne hne.symm
      have hothers : (b.others ip).lookup other = b.strikes.lookup other := lookup_filter_of_ne hne.symm b.strikes
      simp only [count, List.lookup_cons, hmissed, hothers]
    | banned => exact count_others_of_ne hne.symm _
  | ban ip => exact count_ban b ip other

/-- The answer to a strike depends on nothing but the address. -/
theorem strike_fst_congr {b' : Bans} (hlimit : b'.limit = b.limit) (hbanned : b'.isBanned ip = b.isBanned ip)
    (hcount : b'.count ip = b.count ip) : (b'.strike ip).1 = (b.strike ip).1 := by
  unfold strike
  rw [hbanned, hcount, hlimit]
  split
  · rfl
  · dsimp only
    split <;> rfl

/-! ### Histories -/

/-- What an address has after calls in turn. -/
structure Tally (limit : Nat) (calls : List Call) (ip : Ip) (b : Bans) : Prop where
  limit_eq : b.limit = max limit 1
  isBanned_iff : b.isBanned ip = true ↔ .ban ip ∈ calls ∨ max limit 1 ≤ calls.count (.strike ip)
  count_eq : b.isBanned ip = false → b.count ip = calls.count (.strike ip)
  count_lt : b.count ip < max limit 1

namespace Tally

theorem ofLimit (limit : Nat) (ip : Ip) : Tally limit [] ip (.ofLimit limit) where
  limit_eq := rfl
  isBanned_iff := iff_of_false nofun (by simp)
  count_eq := fun _ => rfl
  count_lt := Nat.lt_of_lt_of_le Nat.zero_lt_one (Nat.le_max_right limit 1)

private theorem call_of_ne (h : Tally limit calls ip b) (hne : c.address ≠ ip) :
    Tally limit (calls ++ [c]) ip (b.call c) := by
  have hban : .ban ip ∈ calls ++ [c] ↔ .ban ip ∈ calls := by
    rw [List.mem_append, List.mem_singleton]
    exact or_iff_left fun heq => hne (heq ▸ rfl)
  have hstrike : (calls ++ [c]).count (.strike ip) = calls.count (.strike ip) := by
    rw [List.count_append, List.count_singleton, if_neg (by rintro heq; exact hne (beq_iff_eq.1 heq ▸ rfl)),
      Nat.add_zero]
  refine ⟨(limit_call b c).trans h.limit_eq, ?_, ?_, ?_⟩
  · rw [isBanned_call_of_ne b hne, hban, hstrike]
    exact h.isBanned_iff
  · rw [isBanned_call_of_ne b hne, count_call_of_ne b hne, hstrike]
    exact h.count_eq
  · rw [count_call_of_ne b hne]
    exact h.count_lt

private theorem ban (h : Tally limit calls ip b) : Tally limit (calls ++ [.ban ip]) ip (b.ban ip) where
  limit_eq := (limit_ban b ip).trans h.limit_eq
  isBanned_iff := iff_of_true (isBanned_ban_iff.2 (.inl rfl)) (.inl (List.mem_append_right _ List.mem_cons_self))
  count_eq := fun hfree => absurd (isBanned_ban_iff.2 (.inl rfl)) (Bool.eq_false_iff.1 hfree)
  count_lt := by
    rw [count_ban]
    exact h.count_lt

private theorem strike (h : Tally limit calls ip b) : Tally limit (calls ++ [.strike ip]) ip (b.strike ip).2 := by
  have hban : .ban ip ∈ calls ++ [Call.strike ip] ↔ .ban ip ∈ calls := by simp
  have hstrike : (calls ++ [Call.strike ip]).count (Call.strike ip) = calls.count (.strike ip) + 1 := by simp
  have hlimit := h.limit_eq
  have hbanned := h.isBanned_iff
  have hlt := h.count_lt
  have hstruck := b.strike_struck ip
  generalize b.strike ip = result at hstruck
  cases hstruck with
  | already hbanned' =>
    refine ⟨hlimit, iff_of_true hbanned' ?_, fun hfree => absurd hbanned' (Bool.eq_false_iff.1 hfree), hlt⟩
    rw [hban, hstrike]
    exact (hbanned.1 hbanned').imp_right (Nat.le_trans · (Nat.le_succ _))
  | warned hfree hfew =>
    have hcount := h.count_eq hfree
    have hnever : .ban ip ∉ calls := fun hmem => Bool.eq_false_iff.1 hfree (hbanned.2 (.inl hmem))
    have hnow : count { b with strikes := (ip, b.count ip + 1) :: b.others ip } ip = b.count ip + 1 := by
      rw [count, List.lookup_cons_self]
      rfl
    refine ⟨hlimit, iff_of_false (Bool.eq_false_iff.1 hfree) ?_, fun _ => ?_, ?_⟩
    · rw [hban, hstrike]
      rintro (hmem | hmany)
      · exact hnever hmem
      · omega
    · rw [hnow, hstrike, hcount]
    · rw [hnow]
      omega
  | banned hfree hmany =>
    have hcount := h.count_eq hfree
    have hbanned' : isBanned { b with strikes := b.others ip, banned := ip :: b.banned } ip = true :=
      (isBanned_cons_iff _ _).2 (.inl rfl)
    refine ⟨hlimit, iff_of_true hbanned' (.inr ?_), fun hfree => absurd hbanned' (Bool.eq_false_iff.1 hfree), ?_⟩
    · rw [hstrike]
      omega
    · rw [count_others_self]
      omega

/-- What a call does to the address that it is about, and to any other. -/
theorem call (h : Tally limit calls ip b) (c : Call) : Tally limit (calls ++ [c]) ip (b.call c) := by
  by_cases hip : c.address = ip
  · cases c with
    | strike => exact hip ▸ (hip ▸ h).strike
    | ban => exact hip ▸ (hip ▸ h).ban
  · exact h.call_of_ne hip

theorem run (limit : Nat) (calls : List Call) (ip : Ip) : Tally limit calls ip ((Bans.ofLimit limit).run calls) := by
  -- the last call comes last in the history too
  induction calls using List.reverseRecOn with
  | nil => exact .ofLimit limit ip
  | append_singleton calls c ih =>
    rw [run_append]
    exact ih.call c

end Tally

/-- Who is banned after calls in turn, when nobody was at first. -/
def after (limit : Nat) (calls : List Call) : Bans := (ofLimit limit).run calls

theorem after_append (limit : Nat) (calls : List Call) (c : Call) :
    after limit (calls ++ [c]) = (after limit calls).call c :=
  run_append _ _ _

theorem isBanned_after_iff (limit : Nat) (calls : List Call) (ip : Ip) :
    (after limit calls).isBanned ip = true ↔ .ban ip ∈ calls ∨ max limit 1 ≤ calls.count (.strike ip) :=
  (Tally.run limit calls ip).isBanned_iff

theorem count_after_lt (limit : Nat) (calls : List Call) (ip : Ip) : (after limit calls).count ip < max limit 1 :=
  (Tally.run limit calls ip).count_lt

/-- A ban is for ever. -/
theorem isBanned_run_of_isBanned (h : b.isBanned ip = true) (calls : List Call) :
    (b.run calls).isBanned ip = true := by
  induction calls generalizing b with
  | nil => exact h
  | cons c calls ih => exact ih (isBanned_call_of_isBanned h c)

end Bans

end MergedMining
