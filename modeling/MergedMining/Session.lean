import MergedMining.Login
import MergedMining.Stratum.Field

/-!
# Stages of a connection

A connection subscribes once, then authorizes once, and in the end is disconnected.  It never goes back.
-/

namespace MergedMining

open Stratum (Extranonce)

/-- What names a session among all sessions. -/
abbrev SessionId := Nat

/-- What a miner got when it subscribed. -/
structure Subscription where
  id : SessionId
  extranonce1 : Extranonce
  userAgent : String
  deriving Repr, DecidableEq

/-- A subscription whose miner is known. -/
structure Session extends Subscription where
  login : Login
  deriving Repr, DecidableEq

/-- The stage of a connection. -/
inductive Stage
  | connected
  | subscribed (subscription : Subscription)
  | authorized (session : Session)
  | disconnected
  deriving Repr, DecidableEq

namespace Stage

/-- Subscribes a connection that has not done so; says whether it did. -/
def subscribe (s : Stage) (subscription : Subscription) : Bool × Stage :=
  match s with
  | .connected => (true, .subscribed subscription)
  | s => (false, s)

/-- Authorizes a connection that has subscribed. -/
def authorize (s : Stage) (login : Login) : Option Session × Stage :=
  match s with
  | .subscribed subscription =>
    let session := ⟨subscription, login⟩
    (some session, .authorized session)
  | s => (none, s)

/-- The session of a connection. -/
def sessionId? : Stage → Option SessionId
  | .subscribed subscription => some subscription.id
  | .authorized session => some session.id
  | _ => none

/-- The name of a stage. -/
def name : Stage → String
  | .connected => "Connected"
  | .subscribed _ => "Subscribed"
  | .authorized _ => "Authorized"
  | .disconnected => "Disconnected"

end Stage

end MergedMining
