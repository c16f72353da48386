import MergedMining.Session
import MergedMining.Stratum.Message

/-!
# Who is told of new jobs

Authorized sessions are registered.  A broadcast puts a message into the mailbox of every registered session; a
full mailbox is passed over, and a session whose mailbox is gone is no longer registered.
-/

namespace MergedMining

open Stratum (Message)

/-- Messages on their way to a miner. -/
structure Mailbox where
  messages : List Message
  capacity : Nat

/-- The registered sessions, and the mailboxes. -/
structure Registry where
  registered : List SessionId
  mailboxes : List (SessionId × Mailbox)

namespace Registry

/-- Nobody is registered. -/
def empty : Registry := ⟨[], []⟩

/-- The mailbox of a session. -/
def mailbox? (r : Registry) (id : SessionId) : Option Mailbox := r.mailboxes.lookup id

/-- The mailboxes of all other sessions. -/
def otherMailboxes (r : Registry) (id : SessionId) : List (SessionId × Mailbox) :=
  r.mailboxes.filter (·.1 ≠ id)

/-- Gives a session a mailbox, in place of one that it has. -/
def setMailbox (r : Registry) (id : SessionId) (box : Mailbox) : Registry :=
  { r with mailboxes := (id, box) :: r.otherMailboxes id }

/-- Registers a session with an empty mailbox. -/
def insert (r : Registry) (id : SessionId) (capacity : Nat) : Registry :=
  { r.setMailbox id ⟨[], capacity⟩ with
    registered := if r.registered.contains id then r.registered else r.registered ++ [id] }

/-- Ends the registration of a session; its mailbox stays. -/
def remove (r : Registry) (id : SessionId) : Registry :=
  { r with registered := r.registered.filter (· ≠ id) }

/-- Takes the mailbox of a session away. -/
def close (r : Registry) (id : SessionId) : Registry :=
  { r with mailboxes := r.otherMailboxes id }

/-- How many sessions are registered. -/
def size (r : Registry) : Nat := r.registered.length

/-- Whether a session is registered. -/
def contains (r : Registry) (id : SessionId) : Bool := r.registered.contains id

/-- Puts a message into the mailbox of one session; says whether it was delivered. -/
def post (r : Registry) (message : Message) (id : SessionId) : Bool × Registry :=
  match r.mailbox? id with
  | none => (false, r.remove id)
  | some box =>
    if box.messages.length < box.capacity then
      (true, r.setMailbox id { box with messages := box.messages ++ [message] })
    else (false, r)

/-- Puts a message into the mailboxes of the given sessions; says how many got it. -/
def postAll (message : Message) : List SessionId → Registry → Nat × Registry
  | [], r => (0, r)
  | id :: ids, r =>
    let (delivered, r) := r.post message id
    let (count, r) := postAll message ids r
    (count + delivered.toNat, r)

/-- Puts a message into the mailboxes of all registered sessions; says how many got it. -/
def broadcast (r : Registry) (message : Message) : Nat × Registry :=
  postAll message r.registered r

/-- Takes the oldest message out of a mailbox. -/
def receive (r : Registry) (id : SessionId) : Option Message × Registry :=
  match r.mailbox? id with
  | none => (none, r)
  | some box =>
    match box.messages with
    | [] => (none, r)
    | message :: rest => (some message, r.setMailbox id { box with messages := rest })

end Registry

end MergedMining
