import MergedMining.Chain
import MergedMining.Json.Members
import MergedMining.Target

/-!
# Block templates

What a daemon hands out to build a block from, and the block of a merge-mined chain that the coinbase has to
commit to.
-/

namespace MergedMining

/-- A transaction of a template. -/
structure TemplateTransaction where
  data : String
  txid : String
  fee : UInt64
  deriving Repr

/-- The contents of the next block of a chain. -/
structure BlockTemplate where
  version : UInt32
  previousHash : String
  height : UInt64
  value : UInt64
  witnessCommitment : Option String
  bits : String
  target : Target
  transactions : List TemplateTransaction
  time : UInt64
  extension : Option String
  deriving Repr

namespace TemplateTransaction

/-- Reads a transaction. -/
def ofJson? (v : Json) : Option TemplateTransaction := do
  let m ← Json.members [Json.field "data", Json.field "txid", Json.field "fee"] v
  return {
    data := ← m.required "data" Json.toStr?
    txid := ← m.required "txid" Json.toStr?
    fee := ← m.withDefault "fee" 0 Json.toUInt64? }

/-- Writes a transaction. -/
def toJson (t : TemplateTransaction) : Json :=
  .obj [("data", .str t.data), ("txid", .str t.txid), ("fee", .ofNat t.fee.toNat)]

/-- The id in the byte order of the block. -/
def idBytes (t : TemplateTransaction) : Except EncodingFault Bytes :=
  Hex.turned 32 (fun bs => .txidLength t.txid bs.length) t.txid

end TemplateTransaction

namespace BlockTemplate

/-- A block version: unsigned, or signed and taken modulo `2 ^ 32`. -/
def version? (v : Json) : Option UInt32 :=
  match v.toInt64? with
  | none => none
  | some n => if -0x80000000 ≤ n ∧ n < 0x100000000 then some (UInt32.ofNat (n % 0x100000000).toNat) else none

/-- A target given as text. -/
def target? (v : Json) : Option Target :=
  v.toStr?.bind fun s => (Target.parse s).toOption

/-- The members of a template. -/
def fields : List Json.Field :=
  ["version", "previousblockhash", "height", "coinbasevalue", "default_witness_commitment", "bits", "target",
    "transactions", "curtime", "mweb"].map Json.field

/-- Reads a template. -/
def ofJson? (v : Json) : Option BlockTemplate := do
  let m ← Json.members fields v
  return {
    version := ← m.required "version" version?
    previousHash := ← m.required "previousblockhash" Json.toStr?
    height := ← m.required "height" Json.toUInt64?
    value := ← m.required "coinbasevalue" Json.toUInt64?
    witnessCommitment := ← m.optionalWithDefault "default_witness_commitment" Json.toStr?
    bits := ← m.required "bits" Json.toStr?
    target := ← m.required "target" target?
    transactions := ← m.withDefault "transactions" [] (Json.toList? TemplateTransaction.ofJson?)
    time := ← m.required "curtime" Json.toUInt64?
    extension := ← m.optionalWithDefault "mweb" Json.toStr? }

/-- A member that is left out when it has no value. -/
def present (key : String) : Option String → List (String × Json)
  | none => []
  | some s => [(key, .str s)]

/-- Writes a template. -/
def toJson (t : BlockTemplate) : Json :=
  .obj ([("version", .ofNat t.version.toNat), ("previousblockhash", .str t.previousHash),
      ("height", .ofNat t.height.toNat), ("coinbasevalue", .ofNat t.value.toNat)] ++
    present "default_witness_commitment" t.witnessCommitment ++
    [("bits", .str t.bits), ("target", .str t.target.toText),
      ("transactions", .arr (t.transactions.map TemplateTransaction.toJson)),
      ("curtime", .ofNat t.time.toNat)] ++
    present "mweb" t.extension)

/-- The ids of the transactions in the byte order of the block. -/
def txids (t : BlockTemplate) : Except EncodingFault (List Bytes) :=
  t.transactions.mapM TemplateTransaction.idBytes

/-- How hard the block is to find, as miners see it. -/
def networkDifficulty (t : BlockTemplate) (chain : Chain) : Float :=
  t.target.difficulty * chain.shareMultiplier

end BlockTemplate

/-- A block of a merge-mined chain, complete but for its proof of work. -/
structure AuxBlock where
  hash : String
  chainId : UInt32
  previousHash : String
  coinbaseHash : String
  value : UInt64
  bits : String
  height : UInt64
  targetText : String
  deriving Repr

namespace AuxBlock

/-- The members of a merge-mined block. -/
def fields : List Json.Field :=
  ["hash", "chainid", "previousblockhash", "coinbasehash", "coinbasevalue", "bits", "height"].map Json.field ++
    [⟨"target", ["_target"]⟩]

/-- Reads a merge-mined block. -/
def ofJson? (v : Json) : Option AuxBlock := do
  let m ← Json.members fields v
  return {
    hash := ← m.required "hash" Json.toStr?
    chainId := ← m.required "chainid" Json.toUInt32?
    previousHash := ← m.required "previousblockhash" Json.toStr?
    coinbaseHash := ← m.withDefault "coinbasehash" "" Json.toStr?
    value := ← m.required "coinbasevalue" Json.toUInt64?
    bits := ← m.required "bits" Json.toStr?
    height := ← m.required "height" Json.toUInt64?
    targetText := ← m.required "target" Json.toStr? }

/-- Writes a merge-mined block. -/
def toJson (b : AuxBlock) : Json :=
  .obj [("hash", .str b.hash), ("chainid", .ofNat b.chainId.toNat), ("previousblockhash", .str b.previousHash),
    ("coinbasehash", .str b.coinbaseHash), ("coinbasevalue", .ofNat b.value.toNat), ("bits", .str b.bits),
    ("height", .ofNat b.height.toNat), ("target", .str b.targetText)]

/-- The target, which is given least significant byte first. -/
def target (b : AuxBlock) : Except EncodingFault Target :=
  Target.parseLE b.targetText

/-- The bytes in the parent's coinbase that bind the parent's work to this block: a marker, the hash of the
block, and the shape of a tree of merge-mined chains with one leaf. -/
def commitment (b : AuxBlock) : Except EncodingFault Bytes :=
  Hex.bytes ("fabe6d6d" ++ b.hash ++ "010000000000000000002632")

/-- How hard the block is to find, as miners see it. -/
def networkDifficulty (b : AuxBlock) (chain : Chain) : Except EncodingFault Float :=
  match b.target with
  | .error e => .error e
  | .ok t => .ok (t.difficulty * chain.shareMultiplier)

end AuxBlock

end MergedMining
