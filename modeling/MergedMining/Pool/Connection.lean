import MergedMining.Blank
import MergedMining.Pool.Framing
import MergedMining.Pool.Request

/-!
# Connections

A connection reads lines, answers them in order, and passes on the messages in its mailbox.  It ends in order
when the miner stops sending, stays silent too long, floods, sends what is no message, or is refused, and when
the pool stops; and it breaks when nothing can be written any more.  At its end its session is no longer
registered.
-/

namespace MergedMining

open Stratum (Message)

/-- How a connection ended. -/
inductive Ending
  | inOrder
  | broken
  deriving Repr, DecidableEq

/-- A connection of a miner.  `room` is the number of messages that can still be written, when there is a limit;
`sent` holds the written ones, the latest first. -/
structure Connection where
  ip : Ip
  stage : Stage
  received : Bytes
  deadline : Nat
  room : Option Nat
  sent : List Message
  ended : Option Ending

namespace Connection

variable {σ : Type}

/-- A new connection. -/
def ofIp (ip : Ip) (deadline : Nat) : Connection := ⟨ip, .connected, [], deadline, none, [], none⟩

/-- Ends a connection. -/
def finish (c : Connection) (p : Pool σ) (ending : Ending) : Connection × Pool σ :=
  let registry := match c.stage.sessionId? with
    | none => p.registry
    | some id => (p.registry.remove id).close id
  ({ c with stage := .disconnected, received := [], ended := some ending }, { p with registry })

/-- Writes messages until one cannot be written; says whether all were. -/
def write (c : Connection) : List Message → Bool × Connection
  | [] => (true, c)
  | m :: ms =>
    match c.room with
    | none => write { c with sent := m :: c.sent } ms
    | some 0 => (false, c)
    | some (n + 1) => write { c with sent := m :: c.sent, room := some n } ms

/-- Answers a request. -/
def answer [Store σ] (c : Connection) (p : Pool σ) (now : Nat) (id : Stratum.Id) (method : String)
    (params : Json) : Connection × Pool σ :=
  let (reaction, stage, p) := p.dispatch c.ip c.stage id method params
  match { c with stage }.write reaction.messages with
  | (false, c) => c.finish p .broken
  | (true, c) =>
    if reaction.stays then ({ c with deadline := now + p.settings.connectionTimeout }, p)
    else c.finish p .inOrder

/-- Handles a line. -/
def handleLine [Store σ] (c : Connection) (p : Pool σ) (now : Nat) (line : String) : Connection × Pool σ :=
  if line.toList.all Blank.isBlank then (c, p)
  else
    match Message.parse? line with
    | none => c.finish { p with bans := (p.bans.strike c.ip).2 } .inOrder
    | some (.request id method params) => c.answer p now id method params
    | some (.notification method params) => c.answer p now .null method params
    | some (.response _ _ _) => (c, p)

/-- Handles all lines that have come in, as long as the connection is open. -/
def handleLines [Store σ] (now : Nat) (bytes : Bytes) (c : Connection) (p : Pool σ) : Connection × Pool σ :=
  match _h : Framing.next bytes with
  | .incomplete => ({ c with received := bytes }, p)
  | .flood => c.finish { p with bans := p.bans.ban c.ip } .inOrder
  | .unreadable => c.finish p .inOrder
  | .line text rest =>
    match c.handleLine p now text with
    | (c, p) => if c.ended.isSome then (c, p) else handleLines now rest c p
termination_by bytes.length
decreasing_by exact Framing.length_rest_lt _h

/-- Bytes come in. -/
def receive [Store σ] (c : Connection) (p : Pool σ) (now : Nat) (bytes : Bytes) : Connection × Pool σ :=
  if c.ended.isSome then (c, p) else handleLines now (c.received ++ bytes) c p

/-- The miner stops sending; what remains may be a last line. -/
def endOfStream [Store σ] (c : Connection) (p : Pool σ) (now : Nat) : Connection × Pool σ :=
  if c.ended.isSome then (c, p)
  else
    match Framing.last c.received with
    | .line text _ =>
      match c.handleLine p now text with
      | (c, p) => if c.ended.isSome then (c, p) else c.finish p .inOrder
    | _ => c.finish p .inOrder

/-- Time passes: a connection that was silent for too long is closed. -/
def passTime (c : Connection) (p : Pool σ) (now : Nat) : Connection × Pool σ :=
  if c.ended.isNone ∧ c.deadline ≤ now then c.finish p .inOrder else (c, p)

/-- The pool stops. -/
def cancel (c : Connection) (p : Pool σ) : Connection × Pool σ :=
  if c.ended.isSome then (c, p) else c.finish p .inOrder

/-- Passes on the messages in the mailbox of the connection. -/
def deliver (c : Connection) (p : Pool σ) : Connection × Pool σ :=
  match c.stage with
  | .authorized session =>
    match p.registry.mailbox? session.id with
    | none => (c, p)
    | some box =>
      match c.write box.messages with
      | (true, c) => (c, { p with registry := p.registry.setMailbox session.id { box with messages := [] } })
      | (false, c) => c.finish p .broken
  | _ => (c, p)

end Connection

end MergedMining
