import MergedMining.Coinbase
import MergedMining.Hash.Scrypt
import MergedMining.Merkle
import MergedMining.Stratum.Notify

/-!
# Work

A job that miners are given, with all that is needed to rebuild the block of a miner's answer.  A `Block` is
rebuilt step by step: first its header, then the work done on it.  A step that fails leaves no block behind, so
header, coinbase and hash always belong together.
-/

namespace MergedMining

open Stratum (JobId Notify Nonce Ntime)

/-- The digest of two neighbours in the tree of a block. -/
def combineDigests (left right : Bytes) : Bytes :=
  sha256d (left ++ right)

/-- A job. -/
structure Work where
  jobId : JobId
  chain : Chain
  template : BlockTemplate
  aux : Option AuxBlock
  prevhash : String
  coinbase : Coinbase
  steps : List Bytes

namespace Work

/-- The message that hands out a job. -/
def notify (w : Work) (clean : Bool) : Except EncodingFault Notify :=
  if w.template.time.toNat < UInt32.size then
    .ok {
      jobId := w.jobId
      prevhash := w.prevhash
      coinb1 := Hex.encode w.coinbase.initial
      coinb2 := Hex.encode w.coinbase.final
      branches := w.steps.map Hex.encode
      version := ⟨w.template.version⟩
      bits := w.template.bits
      ntime := ⟨UInt32.ofNat w.template.time.toNat⟩
      clean }
  else .error (.templateTime w.template.time.toNat)

/-- The height of the block. -/
def height (w : Work) : UInt64 := w.template.height

/-- The target of the merge-mined block. -/
def auxTarget (w : Work) : Except EncodingFault (Option Target) :=
  match w.aux with
  | none => .ok none
  | some aux => aux.target.map some

/-- The signature of the pool, and behind it the commitment to a merge-mined block. -/
def signatureWith (signature : Bytes) : Option AuxBlock → Except EncodingFault Bytes
  | none => .ok signature
  | some aux => aux.commitment.map fun commitment => signature ++ commitment

/-- Builds the job of a template. -/
def ofTemplate (template : BlockTemplate) (aux : Option AuxBlock) (chain : Chain) (signature script : Bytes)
    (reserved : Nat) (jobId : JobId) : Except EncodingFault (Work × Notify) := do
  let prevhash ← Hex.reverseWords template.previousHash
  let signature ← signatureWith signature aux
  let coinbase ← Coinbase.build template script signature reserved
  let txids ← template.txids
  let work : Work := ⟨jobId, chain, template, aux, prevhash, coinbase, Merkle.branch combineDigests txids⟩
  let notify ← work.notify false
  return (work, notify)

/-- Builds a job, if there is a template. -/
def build (template : Option BlockTemplate) (aux : Option AuxBlock) (chain : Chain) (signature script : Bytes)
    (reserved : Nat) (jobId : JobId) : Except Fault (Work × Notify) :=
  match template with
  | none => .error (.state .noTemplate)
  | some template =>
    (ofTemplate template aux chain signature script reserved jobId).mapError .encoding

end Work

/-- A block rebuilt from a miner's answer. -/
structure Block where
  work : Work
  coinbase : Bytes
  header : Option Bytes
  hash : Option Bytes

namespace Block

/-- A block of which nothing is known but its job. -/
def ofWork (work : Work) : Block := ⟨work, [], none, none⟩

/-- The previous block's hash in the byte order of the header. -/
def previousHash (template : BlockTemplate) : Except EncodingFault Bytes :=
  Hex.turned 32 (fun bs => .previousHashLength bs.length) template.previousHash

/-- The compact bits in the byte order of the header. -/
def bits (template : BlockTemplate) : Except EncodingFault Bytes :=
  Hex.turned 4 (fun _ => .bitsBytes template.bits) template.bits

/-- The root of the tree of transactions, given the coinbase. -/
def merkleRoot (work : Work) (coinbase : Bytes) : Bytes :=
  Merkle.fold combineDigests (sha256d coinbase) work.steps

/-- The eighty bytes that miners hash. -/
def headerBytes (template : BlockTemplate) (root : Bytes) (nonce : Nonce) (ntime : Ntime) :
    Except EncodingFault Bytes := do
  let previous ← previousHash template
  let bits ← bits template
  return Bytes.ofNatLE 4 template.version.toNat ++ previous ++ root ++ ntime.toBytes.reverse ++ bits ++
    nonce.toBytes.reverse

/-- Rebuilds coinbase and header; a work done on an earlier header no longer counts. -/
def makeHeader (b : Block) (extranonce : Bytes) (nonce : Nonce) (ntime : Ntime) : Except EncodingFault Block :=
  let coinbase := b.work.coinbase.around extranonce
  (headerBytes b.work.template (merkleRoot b.work coinbase) nonce ntime).map fun header =>
    { b with coinbase, header := some header, hash := none }

/-- The work done on the header, to be compared with targets. -/
def sum (b : Block) : Except StateFault (Target × Block) :=
  match b.header with
  | none => .error .headerNotHashable
  | some header =>
    let hash := (scrypt header).reverse
    .ok (Target.ofBytesBE hash, { b with hash := some hash })

/-- The count and the bytes behind the transactions: the block of the extension chain, when there is one. -/
def extensionText : Option String → String
  | none => ""
  | some data => if data.isEmpty then "" else "01" ++ data

/-- The block as daemons accept it. -/
def submission (b : Block) : Except StateFault String :=
  match b.header with
  | none => .error .headerNotSubmittable
  | some header =>
    .ok (Hex.encode header ++ Hex.encode (CompactSize.encode (b.work.template.transactions.length + 1)) ++
      Hex.encode b.coinbase ++ String.join (b.work.template.transactions.map (·.data)) ++
      extensionText b.work.template.extension)

/-- The hash of the block as it is shown. -/
def headerHash (b : Block) : Except StateFault String :=
  match b.header with
  | none => .error .headerNotHashable
  | some header => .ok (Hex.encode (sha256d header).reverse)

/-- The digest of the coinbase. -/
def coinbaseHash (b : Block) : Except StateFault String :=
  match b.header with
  | none => .error .coinbaseMissing
  | some _ => .ok (Hex.encode (sha256d b.coinbase))

end Block

end MergedMining
