import MergedMining.Json.Members
import MergedMining.Json.Printer
import MergedMining.Timestamp

/-!
# Records of shares

What is kept of a share: who is to be paid, for how much work, at which height.
-/

namespace MergedMining

/-- A counted share. -/
structure Share where
  poolId : String
  height : UInt64
  miner : String
  worker : String
  userAgent : String
  difficulty : Float
  networkDifficulty : Float
  ip : String
  created : Timestamp
  deriving Repr

namespace Share

/-- The members of a share. -/
def fields : List Json.Field :=
  ["pool_id", "block_height", "miner", "worker", "user_agent", "difficulty", "network_difficulty", "ip_address",
    "created"].map Json.field

/-- The share with the given members. -/
def ofMembers? (m : Json.Members) : Option Share := do
  return {
    poolId := ← m.required "pool_id" Json.toStr?
    height := ← m.required "block_height" Json.toUInt64?
    miner := ← m.required "miner" Json.toStr?
    worker := ← m.required "worker" Json.toStr?
    userAgent := ← m.required "user_agent" Json.toStr?
    difficulty := ← m.required "difficulty" Json.toFloat?
    networkDifficulty := ← m.required "network_difficulty" Json.toFloat?
    ip := ← m.required "ip_address" Json.toStr?
    created := ← m.required "created" Timestamp.ofJson? }

/-- Reads a share. -/
def ofJson? (v : Json) : Option Share := (Json.members fields v).bind ofMembers?

/-- The members of a share, in order. -/
def toMembers (s : Share) : List (String × Json) :=
  [("pool_id", .str s.poolId), ("block_height", .ofNat s.height.toNat), ("miner", .str s.miner),
    ("worker", .str s.worker), ("user_agent", .str s.userAgent), ("difficulty", .float s.difficulty),
    ("network_difficulty", .float s.networkDifficulty), ("ip_address", .str s.ip), ("created", s.created.toJson)]

/-- Writes a share. -/
def toJson (s : Share) : Json := .obj s.toMembers

end Share

end MergedMining
