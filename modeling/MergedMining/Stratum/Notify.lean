import MergedMining.Json.Members
import MergedMining.Stratum.Field

/-!
# What the pool tells miners

The answer to a subscription, the difficulty to work at, and the job to work on.  Each is a list of fixed length.
-/

namespace MergedMining

namespace Stratum

/-- The name of the message that sets the difficulty. -/
def setDifficultyMethod : String := "mining.set_difficulty"

/-- The name of the message that hands out a job. -/
def notifyMethod : String := "mining.notify"

/-- A field that was written as text. -/
def field? {α : Type} (parse : String → Except FieldFault α) (v : Json) : Option α :=
  v.toStr?.bind fun s => (parse s).toOption

/-- A job, in the form that miners build headers from. -/
structure Notify where
  jobId : JobId
  prevhash : String
  coinb1 : String
  coinb2 : String
  branches : List String
  version : Version
  bits : String
  ntime : Ntime
  clean : Bool
  deriving Repr, DecidableEq

namespace Notify

/-- Reads a job. -/
def ofJson? : Json → Option Notify
  | .arr [jobId, prevhash, coinb1, coinb2, branches, version, bits, ntime, clean] => do
    return {
      jobId := ← field? JobId.parse jobId
      prevhash := ← prevhash.toStr?
      coinb1 := ← coinb1.toStr?
      coinb2 := ← coinb2.toStr?
      branches := ← Json.toList? Json.toStr? branches
      version := ← field? (Word.parse .version) version
      bits := ← bits.toStr?
      ntime := ← field? (Word.parse .ntime) ntime
      clean := ← clean.toBool? }
  | _ => none

/-- Writes a job. -/
def toJson (n : Notify) : Json :=
  .arr [.str n.jobId.toText, .str n.prevhash, .str n.coinb1, .str n.coinb2, .arr (n.branches.map .str),
    .str n.version.toText, .str n.bits, .str n.ntime.toText, .bool n.clean]

/-- The same job with another word on whether earlier jobs still count. -/
def withClean (n : Notify) (clean : Bool) : Notify := { n with clean }

end Notify

/-- The difficulty to work at. -/
structure SetDifficulty where
  difficulty : Float
  deriving Repr

namespace SetDifficulty

/-- Reads a difficulty. -/
def ofJson? : Json → Option SetDifficulty
  | .arr [v] => v.toFloat?.map .mk
  | _ => none

/-- Writes a difficulty. -/
def toJson (d : SetDifficulty) : Json := .arr [.float d.difficulty]

end SetDifficulty

/-- The answer to a subscription: what the miner will be sent, and its extranonce. -/
structure SubscribeResult where
  subscriptions : List (String × String)
  extranonce1 : Extranonce
  extranonce2Size : UInt32
  deriving Repr, DecidableEq

namespace SubscribeResult

/-- The answer that names both kinds of messages by the session. -/
def ofSession (session : String) (extranonce1 : Extranonce) (extranonce2Size : UInt32) : SubscribeResult :=
  ⟨[(setDifficultyMethod, session), (notifyMethod, session)], extranonce1, extranonce2Size⟩

/-- Two texts. -/
def pair? : Json → Option (String × String)
  | .arr [a, b] => do return (← a.toStr?, ← b.toStr?)
  | _ => none

/-- Reads the answer to a subscription. -/
def ofJson? : Json → Option SubscribeResult
  | .arr [subscriptions, extranonce1, size] => do
    return ⟨← Json.toList? pair? subscriptions, ← field? Extranonce.parse extranonce1, ← size.toUInt32?⟩
  | _ => none

/-- Writes the answer to a subscription. -/
def toJson (r : SubscribeResult) : Json :=
  .arr [.arr (r.subscriptions.map fun (a, b) => .arr [.str a, .str b]), .str r.extranonce1.toText,
    .ofNat r.extranonce2Size.toNat]

end SubscribeResult

end Stratum

end MergedMining
