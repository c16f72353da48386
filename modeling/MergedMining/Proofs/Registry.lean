import MergedMining.Registry

/-!
# Mailboxes

What is done with the mailbox of one session leaves the others as they are.  A message that is posted to a
session with room comes last in its mailbox (`post_of_mailbox?`), and one that is posted to another session
neither reaches it nor ends its registration (`mailbox?_post_of_ne`, `mem_registered_post_of_ne`).
-/

namespace MergedMining

open Stratum (Message)

/-- What is looked up in a list of entries does not depend on the entries of another key. -/
theorem lookup_filter_of_ne {κ α : Type} [BEq κ] [LawfulBEq κ] [DecidableEq κ] {key other : κ} (hne : other ≠ key)
    (l : List (κ × α)) : (l.filter (·.1 ≠ key)).lookup other = l.lookup other := by
  induction l with
  | nil => rfl
  | cons entry l ih =>
    by_cases heq : entry.1 = key
    · have hother : (other == entry.1) = false := beq_false_of_ne (heq ▸ hne)
      rw [List.filter_cons_of_neg (by simpa using heq), ih, List.lookup_cons, hother]
    · rw [List.filter_cons_of_pos (by simpa using heq), List.lookup_cons, List.lookup_cons, ih]

namespace Registry

variable {r : Registry} {id id' : SessionId} {box : Mailbox}

/-! ### One mailbox and the others -/

@[simp]
theorem mailbox?_setMailbox (r : Registry) (id : SessionId) (box : Mailbox) :
    (r.setMailbox id box).mailbox? id = some box :=
  List.lookup_cons_self

theorem mailbox?_setMailbox_of_ne (hne : id' ≠ id) (r : Registry) (box : Mailbox) :
    (r.setMailbox id box).mailbox? id' = r.mailbox? id' := by
  rw [mailbox?, setMailbox, List.lookup_cons, beq_false_of_ne hne]
  exact lookup_filter_of_ne hne r.mailboxes

/-- The mailbox that is set last stays. -/
@[simp]
theorem setMailbox_setMailbox (r : Registry) (id : SessionId) (box box' : Mailbox) :
    (r.setMailbox id box).setMailbox id box' = r.setMailbox id box' := by
  simp [setMailbox, otherMailboxes]

@[simp]
theorem registered_setMailbox (r : Registry) (id : SessionId) (box : Mailbox) :
    (r.setMailbox id box).registered = r.registered := rfl

/-! ### Registration -/

@[simp]
theorem mailbox?_insert (r : Registry) (id : SessionId) (capacity : Nat) :
    (r.insert id capacity).mailbox? id = some ⟨[], capacity⟩ :=
  List.lookup_cons_self

theorem mem_registered_insert (r : Registry) (id : SessionId) (capacity : Nat) :
    id ∈ (r.insert id capacity).registered := by
  unfold insert
  by_cases hold : r.registered.contains id = true
  · simp only [hold, if_true]
    exact List.contains_iff_mem.1 hold
  · simp only [hold]
    exact List.mem_append_right _ (List.mem_singleton.2 rfl)

/-! ### Posting and receiving -/

theorem post_of_mailbox? (hbox : r.mailbox? id = some box) (hroom : box.messages.length < box.capacity)
    (message : Message) :
    (r.post message id).2 = r.setMailbox id { box with messages := box.messages ++ [message] } := by
  simp only [post, hbox, hroom, if_true]

/-- A mailbox that a message is posted to holds one more at most. -/
theorem length_le_of_mailbox?_post {message : Message} {box' : Mailbox}
    (h : (r.post message id).2.mailbox? id = some box') : ∃ box, r.mailbox? id = some box ∧
      box'.capacity = box.capacity ∧ box'.messages.length ≤ box.messages.length + 1 := by
  rcases hbox : r.mailbox? id with _ | box
  · simp only [post, hbox] at h
    rw [show (r.remove id).mailbox? id = r.mailbox? id from rfl, hbox] at h
    cases h
  by_cases hroom : box.messages.length < box.capacity
  · rw [post_of_mailbox? hbox hroom, mailbox?_setMailbox] at h
    cases h
    exact ⟨box, rfl, rfl, by simp⟩
  · simp only [post, hbox, if_neg hroom] at h
    cases h
    exact ⟨_, rfl, rfl, Nat.le_succ _⟩

theorem mailbox?_post_of_ne (hne : id' ≠ id) (r : Registry) (message : Message) :
    (r.post message id).2.mailbox? id' = r.mailbox? id' := by
  unfold post
  split
  · rfl
  · split
    · exact mailbox?_setMailbox_of_ne hne r _
    · rfl

theorem mem_registered_post_of_ne (hne : id' ≠ id) (h : id' ∈ r.registered) (message : Message) :
    id' ∈ (r.post message id).2.registered := by
  unfold post
  split
  · exact List.mem_filter.2 ⟨h, by simpa using hne⟩
  · split
    · exact h
    · exact h

/-- The oldest message is received first. -/
theorem receive_of_mailbox? {message : Message} {rest : List Message} (hbox : r.mailbox? id = some box)
    (hmessages : box.messages = message :: rest) :
    r.receive id = (some message, r.setMailbox id { box with messages := rest }) := by
  simp only [receive, hbox, hmessages]

theorem receive_eq_some {message : Message} {r' : Registry} (h : r.receive id = (some message, r')) :
    ∃ box rest, r.mailbox? id = some box ∧ box.messages = message :: rest ∧
      r' = r.setMailbox id { box with messages := rest } := by
  unfold receive at h
  split at h
  · cases h
  · next box hbox =>
    split at h
    · cases h
    · next rest hmessages =>
      cases h
      exact ⟨box, _, hbox, hmessages, rfl⟩

end Registry

end MergedMining
