import MergedMining.Json.Members
import MergedMining.Json.Printer
import MergedMining.Timestamp

/-!
# Found blocks

A block that a daemon accepted is kept until its reward can be spent, or until the chain has left it behind.
-/

namespace MergedMining

/-- What has become of a found block. -/
inductive BlockStatus
  | pending
  | confirmed
  | orphaned
  deriving Repr, DecidableEq

namespace BlockStatus

/-- The text of a status. -/
def name : BlockStatus → String
  | .pending => "pending"
  | .confirmed => "confirmed"
  | .orphaned => "orphaned"

/-- The status of a text. -/
def ofName? (s : String) : Option BlockStatus :=
  [pending, confirmed, orphaned].find? (·.name = s)

/-- Reads a status: its text, or an object that holds nothing but a null under that text. -/
def ofJson? : Json → Option BlockStatus
  | .str s => ofName? s
  | .obj [(s, .null)] => ofName? s
  | _ => none

end BlockStatus

/-- A found block. -/
structure FoundBlock where
  id : Int
  poolId : String
  chain : String
  height : UInt64
  networkDifficulty : Float
  status : BlockStatus
  kind : String
  progress : Float
  effort : Float
  confirmation : String
  miner : String
  reward : Float
  hash : String
  created : Timestamp
  deriving Repr

namespace FoundBlock

/-- The members of a found block. -/
def fields : List Json.Field :=
  ["id", "pool_id", "chain", "block_height", "network_difficulty", "status", "type", "confirmation_progress",
    "effort", "transaction_confirmation_data", "miner", "reward", "hash", "created"].map Json.field

/-- The found block with the given members. -/
def ofMembers? (m : Json.Members) : Option FoundBlock := do
  return {
    id := ← m.withDefault "id" 0 Json.toInt64?
    poolId := ← m.required "pool_id" Json.toStr?
    chain := ← m.required "chain" Json.toStr?
    height := ← m.required "block_height" Json.toUInt64?
    networkDifficulty := ← m.required "network_difficulty" Json.toFloat?
    status := ← m.required "status" BlockStatus.ofJson?
    kind := ← m.required "type" Json.toStr?
    progress := ← m.required "confirmation_progress" Json.toFloat?
    effort := ← m.required "effort" Json.toFloat?
    confirmation := ← m.required "transaction_confirmation_data" Json.toStr?
    miner := ← m.required "miner" Json.toStr?
    reward := ← m.required "reward" Json.toFloat?
    hash := ← m.required "hash" Json.toStr?
    created := ← m.required "created" Timestamp.ofJson? }

/-- Reads a found block. -/
def ofJson? (v : Json) : Option FoundBlock := (Json.members fields v).bind ofMembers?

/-- The members of a found block, in order. -/
def toMembers (b : FoundBlock) : List (String × Json) :=
  [("id", .int b.id), ("pool_id", .str b.poolId), ("chain", .str b.chain), ("block_height", .ofNat b.height.toNat),
    ("network_difficulty", .float b.networkDifficulty), ("status", .str b.status.name), ("type", .str b.kind),
    ("confirmation_progress", .float b.progress), ("effort", .float b.effort),
    ("transaction_confirmation_data", .str b.confirmation), ("miner", .str b.miner), ("reward", .float b.reward),
    ("hash", .str b.hash), ("created", b.created.toJson)]

/-- Writes a found block. -/
def toJson (b : FoundBlock) : Json := .obj b.toMembers

/-- Whether two records say the same; doubles are compared as numbers. -/
def same (a b : FoundBlock) : Bool :=
  a.id = b.id && a.poolId = b.poolId && a.chain = b.chain && a.height = b.height &&
    a.networkDifficulty == b.networkDifficulty && a.status = b.status && a.kind = b.kind &&
    a.progress == b.progress && a.effort == b.effort && a.confirmation = b.confirmation && a.miner = b.miner &&
    a.reward == b.reward && a.hash = b.hash && a.created = b.created

end FoundBlock

end MergedMining
