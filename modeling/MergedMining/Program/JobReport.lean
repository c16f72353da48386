import MergedMining.Pool.Refresh

/-!
# Reports on a job

A job is built once from the templates of the daemons and shown with what it would be worth.
-/

namespace MergedMining

open Stratum (JobId Notify)

/-- What is told of a merge-mined block. -/
structure AuxReport where
  chain : String
  height : UInt64
  hash : String
  networkDifficulty : Float

/-- What is told of a job. -/
structure JobReport where
  chain : String
  height : UInt64
  networkDifficulty : Float
  transactions : Nat
  coinbaseValue : UInt64
  aux : Option AuxReport
  notify : Notify

namespace JobReport

/-- Fetches the template of the first chain, and the block of the second; without a block the first is mined alone. -/
def fetch (primary : ChainNode) (others : List ChainNode) (d : Daemons) :
    Except Failure (BlockTemplate × Option AuxBlock) :=
  match primary.cluster.call Node.getBlockTemplate d with
  | (.error e, _, _) => .error (.during (.fetchingTemplate primary.chain.name) (.fault e))
  | (.ok template, _, d) =>
    match others with
    | [] => .ok (template, none)
    | aux :: _ =>
      match aux.cluster.call (fun node => node.createAuxBlock aux.rewardAddress) d with
      | (.ok block, _, _) => .ok (template, some block)
      | (.error _, _, _) => .ok (template, none)

/-- What is told of the merge-mined block of a job. -/
def auxOf (work : Work) (others : List ChainNode) : Except EncodingFault (Option AuxReport) :=
  match work.aux, others with
  | some block, node :: _ =>
    (block.networkDifficulty node.chain).map fun d => some ⟨node.chain.name, block.height, block.hash, d⟩
  | _, _ => .ok none

/-- A report on the first job that connected chains give; the job's id is zero. -/
def ofChains (chains : List ChainNode) (signature : Bytes) (d : Daemons) : Except Failure JobReport := do
  match chains with
  | [] => throw .noPrimary
  | primary :: others =>
    let (template, block) ← fetch primary others d
    let (work, notify) ← (Work.build (some template) block primary.chain signature primary.script Pool.reserved
      ⟨0⟩).mapError .fault
    return {
      chain := work.chain.name
      height := work.height
      networkDifficulty := work.template.networkDifficulty work.chain
      transactions := work.template.transactions.length
      coinbaseValue := work.template.value
      aux := ← (auxOf work others).mapError .ofEncoding
      notify }

/-- Writes what is told of a merge-mined block. -/
def auxJson (a : AuxReport) : Json :=
  .obj [("chain", .str a.chain), ("height", .ofNat a.height.toNat), ("hash", .str a.hash),
    ("network_difficulty", .float a.networkDifficulty)]

/-- Writes a report. -/
def toJson (r : JobReport) : Json :=
  .obj [("chain", .str r.chain), ("height", .ofNat r.height.toNat),
    ("network_difficulty", .float r.networkDifficulty), ("transactions", .ofNat r.transactions),
    ("coinbase_value", .ofNat r.coinbaseValue.toNat), ("aux", .ofOption auxJson r.aux),
    ("notify", r.notify.toJson)]

/-- The text of a report; a raw one is only the message that hands out the job. -/
def render (raw : Bool) (r : JobReport) : String :=
  (if raw then r.notify.toJson.compact else r.toJson.pretty) ++ "\n"

end JobReport

end MergedMining
