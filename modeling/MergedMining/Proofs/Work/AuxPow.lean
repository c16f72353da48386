import Mathlib.Algebra.BigOperators.Group.List.Basic
import MergedMining.AuxPow
import MergedMining.Proofs.Merkle
import MergedMining.Proofs.Work.Requirements

/-!
# What a merge-mined chain reads in a proof

A proof of work for a merge-mined block is read by daemons that say no more than yes or no.  `AuxPow.parse` is
their grammar, and a text that `Proves` a block is one that they read completely, whose branch leads from the
digest of its coinbase to the root in its header, and whose coinbase ends its script with the commitment to the
block.  Every proof from a job for that block is of this form (`toText_proves`).
-/

namespace MergedMining

open Stratum (JobId Notify Nonce Ntime)

/-! ### Branches -/

namespace Merkle

variable {α : Type} {combine : α → α → α} {P : α → Prop}

private theorem forall_mem_level (hcombine : ∀ a b, P (combine a b)) (nodes : List α) :
    ∀ node ∈ level combine nodes, P node := by
  fun_induction level combine nodes with
  | case1 a b rest ih =>
    intro node hnode
    rcases List.mem_cons.1 hnode with rfl | hnode
    · exact hcombine a b
    · exact ih node hnode
  | case2 a =>
    intro node hnode
    rw [List.mem_singleton.1 hnode]
    exact hcombine a a
  | case3 => simp

/-- The steps of a branch are leaves and combined nodes. -/
theorem forall_mem_branch (hcombine : ∀ a b, P (combine a b)) {others : List α} (h : ∀ leaf ∈ others, P leaf) :
    ∀ step ∈ branch combine others, P step := by
  induction others using branch_induction combine with
  | nil =>
    rw [branch_nil]
    exact fun _ hstep => absurd hstep List.not_mem_nil
  | cons sibling rest ih =>
    intro step hstep
    rw [branch_cons] at hstep
    rcases List.mem_cons.1 hstep with rfl | hstep
    · exact h step List.mem_cons_self
    · exact ih (forall_mem_level hcombine rest) step hstep

end Merkle

theorem Work.length_of_mem_steps {template : BlockTemplate} {aux : Option AuxBlock} {chain : Chain}
    {signature script : Bytes} {reserved : Nat} {jobId : JobId} {work : Work} {notify : Notify}
    (h : Work.ofTemplate template aux chain signature script reserved jobId = .ok (work, notify)) :
    ∀ step ∈ work.steps, step.length = 32 := by
  obtain ⟨_, _, _, txids, -, -, -, htxids, rfl, -⟩ := Work.ofTemplate_eq_ok.1 h
  have hleaves := (BlockTemplate.txids_eq_ok.1 htxids).2
  exact Merkle.forall_mem_branch (P := fun step : Bytes => step.length = 32) (fun _ _ => length_sha256d _) hleaves

/-! ### The grammar of proofs -/

namespace AuxPow

/-- What is read in a proof: the coinbase of the parent, its hash, the branch of the coinbase and its index, the
branch among the merge-mined chains and its index, and the header of the parent. -/
structure Reading where
  coinbase : Transaction
  parentHash : Bytes
  branch : List Bytes
  index : Nat
  chainBranch : List Bytes
  chainIndex : Nat
  header : Bytes
  deriving Repr, DecidableEq

/-- Reads a proof, and gives the bytes behind it. -/
def parse (bytes : Bytes) : Option (Reading × Bytes) := do
  let (coinbase, rest) ← Transaction.parse bytes
  let (parentHash, rest) ← Transaction.chunk? 32 rest
  let (branch, rest) ← Transaction.counted? (Transaction.chunk? 32) rest
  let (index, rest) ← CompactSize.readLE 4 rest
  let (chainBranch, rest) ← Transaction.counted? (Transaction.chunk? 32) rest
  let (chainIndex, rest) ← CompactSize.readLE 4 rest
  let (header, rest) ← Transaction.chunk? 80 rest
  return (⟨coinbase, parentHash, branch, index, chainBranch, chainIndex, header⟩, rest)

/-- The sizes that a proof needs to be read. -/
structure Sized (p : AuxPow) : Prop where
  parentHash : p.parentHash.length = 32
  count : p.branch.length < 2 ^ 64
  branch : ∀ step ∈ p.branch, step.length = 32
  header : p.header.length = 80

theorem parse_toBytes {p : AuxPow} {t : Transaction} (h : p.Sized) (ht : t.Sized)
    (hcoinbase : p.coinbase = t.toBytes) :
    parse p.toBytes = some (⟨t, p.parentHash, p.branch, 0, [], 0, p.header⟩, []) := by
  have hzero : ([0, 0, 0, 0] : Bytes) = Bytes.ofNatLE 4 0 := rfl
  have hbranch : CompactSize.encode p.branch.length ++ p.branch.flatten = Transaction.counted id p.branch := by
    rw [Transaction.counted, List.flatMap_id]
  have hnone : ([0] : Bytes) = Transaction.counted id [] := rfl
  have hchunk : ∀ step ∈ p.branch, ∀ rest, Transaction.chunk? 32 (id step ++ rest) = some (step, rest) :=
    fun step hstep rest => Transaction.chunk?_append (h.branch step hstep) rest
  have hheader : Transaction.chunk? 80 p.header = some (p.header, []) := by
    simpa using Transaction.chunk?_append h.header []
  have hbytes : p.toBytes = t.toBytes ++ (p.parentHash ++ (Transaction.counted id p.branch ++ (Bytes.ofNatLE 4 0 ++
      (Transaction.counted id [] ++ (Bytes.ofNatLE 4 0 ++ p.header))))) := by
    rw [toBytes, hzero, hnone, hcoinbase, ← hbranch]
    simp only [List.append_assoc]
  have hnil : ∀ step ∈ ([] : List Bytes), ∀ rest, Transaction.chunk? 32 (id step ++ rest) =
      some (step, rest) := by simp
  rw [hbytes]
  simp only [parse, Transaction.parse_toBytes ht, Transaction.chunk?_append h.parentHash,
    Transaction.counted?_counted h.count hchunk, Transaction.counted?_counted (by decide) hnil,
    CompactSize.readLE_ofNatLE (show 0 < 256 ^ 4 by decide), hheader, Option.bind_eq_bind, Option.bind_some]
  rfl

/-- The text of a proof for a merge-mined block, by the work on a header.  All of it is read, both indices are
zero, the hash is that of the header as it is shown, the branch leads from the digest of the coinbase to the
root in the header, and the script of the coinbase ends with the commitment to the block. -/
def Proves (aux : AuxBlock) (header : Bytes) (text : String) : Prop :=
  ∃ (bytes hash front rest : Bytes) (coinbase : Transaction) (input : Transaction.Input) (branch : List Bytes),
    Hex.bytes text = .ok bytes ∧ Hex.bytes aux.hash = .ok hash ∧ hash.length = 32 ∧
    parse bytes = some (⟨coinbase, (scrypt header).reverse, branch, 0, [], 0, header⟩, []) ∧
    bytes = coinbase.toBytes ++ rest ∧ header.length = 80 ∧
    Merkle.fold combineDigests (sha256d coinbase.toBytes) branch = (header.drop 36).take 32 ∧
    coinbase.inputs = [input] ∧ input.script = front ++ AuxBlock.commitmentTo hash

/-! ### Proofs from a job -/

variable {template : BlockTemplate} {aux : AuxBlock} {chain : Chain} {signature script extranonce : Bytes}
  {jobId : JobId} {work : Work} {notify : Notify}

/-- The coinbase of a job for a merge-mined block is a transaction whose script ends with the commitment to that
block. -/
private theorem around_commits {hash : Bytes} (hhash : Hex.bytes aux.hash = .ok hash)
    (h : Work.ofTemplate template (some aux) chain signature script extranonce.length jobId = .ok (work, notify)) :
    ∃ (t : Transaction) (input : Transaction.Input) (front : Bytes), work.coinbase.around extranonce = t.toBytes ∧
      t.inputs = [input] ∧ input.previous.length = 32 ∧ input.script = front ++ AuxBlock.commitmentTo hash := by
  obtain ⟨_, signed, coinbase, _, -, hsigned, hcoinbase, -, rfl, -⟩ := Work.ofTemplate_eq_ok.1 h
  obtain ⟨commitment, hcommitment, rfl⟩ := Work.signatureWith_some_eq_ok.1 hsigned
  rw [AuxBlock.commitment_of_hash hhash] at hcommitment
  cases hcommitment
  obtain ⟨-, commitments, -, haround⟩ := Coinbase.around_eq_toBytes hcoinbase
  let height := Coinbase.heightBytes template.height
  let signed := signature ++ AuxBlock.commitmentTo hash
  refine ⟨_, _, UInt8.ofNat height.length :: height ++ extranonce ++ UInt8.ofNat signed.length :: signature, haround,
    rfl, List.length_replicate, ?_⟩
  simp [height, signed]

private theorem length_le_flatten {steps : List Bytes} (h : ∀ step ∈ steps, step.length = 32) :
    steps.length ≤ steps.flatten.length := by
  have hone : ∀ size ∈ steps.map List.length, 1 ≤ size := by
    intro size hsize
    obtain ⟨step, hstep, rfl⟩ := List.mem_map.1 hsize
    have := h step hstep
    omega
  have := List.length_le_sum_of_one_le _ hone
  rwa [List.length_map, ← List.length_flatten] at this

/-- A proof whose parts belong together: the hash is that of the header, and the branch leads from the digest of
the coinbase to the root in the header. -/
private structure Whole (p : AuxPow) : Prop where
  parentHash : p.parentHash = (scrypt p.header).reverse
  header : p.header.length = 80
  root : Merkle.fold combineDigests (sha256d p.coinbase) p.branch = (p.header.drop 36).take 32

/-- A whole proof is read as one for the block that its coinbase commits to. -/
private theorem Whole.proves {p : AuxPow} {t : Transaction} {input : Transaction.Input} {hash front : Bytes}
    (h : p.Whole) (hlen : p.toBytes.length < 2 ^ 64) (hbranch : ∀ step ∈ p.branch, step.length = 32)
    (hcoinbase : p.coinbase = t.toBytes) (hinputs : t.inputs = [input]) (hprevious : input.previous.length = 32)
    (hcommits : input.script = front ++ AuxBlock.commitmentTo hash) (hhash : Hex.bytes aux.hash = .ok hash)
    (h32 : hash.length = 32) : Proves aux p.header p.toText := by
  have hcount := length_le_flatten hbranch
  have hparts : p.coinbase.length < 2 ^ 64 ∧ p.branch.length < 2 ^ 64 := by
    simp only [toBytes, List.length_append] at hlen
    omega
  have hsized : p.Sized := ⟨by simp [h.parentHash], hparts.2, hbranch, h.header⟩
  have hfold := h.root
  rw [hcoinbase] at hparts hfold
  have ht : t.Sized := Transaction.sized_of_length hparts.1 (by simpa [hinputs] using hprevious)
  have hparse := parse_toBytes hsized ht hcoinbase
  rw [h.parentHash] at hparse
  have hfront : ∃ rest, p.toBytes = t.toBytes ++ rest := by
    rw [toBytes, hcoinbase]
    simp only [List.append_assoc]
    exact ⟨_, rfl⟩
  obtain ⟨rest, hrest⟩ := hfront
  exact ⟨_, hash, front, rest, t, input, _, Hex.bytes_encode _, hhash, h32, hparse, hrest, h.header, hfold, hinputs,
    hcommits⟩

/-- Once the work on a header is worked out there is a whole proof. -/
private theorem ofBlock_of_sum {b block summed : Block} {nonce : Nonce} {ntime : Ntime} {sum : Target}
    (hblock : b.makeHeader extranonce nonce ntime = .ok block) (hsum : block.sum = .ok (sum, summed)) :
    ∃ p, ofBlock summed = .ok p ∧ block.header = some p.header ∧ p.coinbase = b.work.coinbase.around extranonce ∧
      p.branch = b.work.steps ∧ p.Whole := by
  obtain ⟨previous, bits, hprevious, hbits, rfl⟩ := Block.makeHeader_eq_ok.1 hblock
  obtain ⟨header, hheader, -, rfl⟩ := Block.sum_eq_ok.1 hsum
  have hroot := Block.length_merkleRoot b.work (b.work.coinbase.around extranonce)
  have h32 := (Block.previousHash_eq_ok.1 hprevious).2
  have h4 := (Block.bits_eq_ok.1 hbits).2
  refine ⟨⟨b.work.coinbase.around extranonce, (scrypt header).reverse, b.work.steps, header⟩, ?_, hheader, rfl, rfl,
    ⟨?_, ?_, ?_⟩⟩
  · rw [ofBlock, hheader]
  · dsimp only
  · rw [← Option.some.inj hheader]
    exact Block.length_layout _ ntime nonce h32 hroot h4
  · rw [← Option.some.inj hheader, Block.root_in_layout _ ntime nonce h32 hroot]
    rfl

/-- Work on a job for a merge-mined block always has a proof, and the proof is for that block, unless it has
more bytes than a compact size can count. -/
theorem toText_proves {reserved : Nat} {b block summed : Block} {nonce : Nonce} {ntime : Ntime} {sum : Target}
    (hwork : Work.build (some template) (some aux) chain signature script reserved jobId = .ok (work, notify))
    (hhash : Hex.IsDigits 64 aux.hash) (hb : b.work = work) (hsize : extranonce.length = reserved)
    (hblock : b.makeHeader extranonce nonce ntime = .ok block) (hsum : block.sum = .ok (sum, summed)) :
    ∃ p, ofBlock summed = .ok p ∧ block.header = some p.header ∧
      (p.toBytes.length < 2 ^ 64 → Proves aux p.header p.toText) := by
  subst hsize hb
  have hbuilt := Work.build_eq_ok.1 hwork
  obtain ⟨hash, hbytes, h32⟩ := (@Hex.exists_bytes_iff_isDigits _ 32).2 hhash
  obtain ⟨t, input, front, haround, hinputs, hprevious, hcommits⟩ := around_commits hbytes hbuilt
  obtain ⟨p, hp, hheader, hcoinbase, hsteps, hwhole⟩ := ofBlock_of_sum hblock hsum
  have hbranch : ∀ step ∈ p.branch, step.length = 32 := by
    rw [hsteps]
    exact Work.length_of_mem_steps hbuilt
  refine ⟨p, hp, hheader, fun hlen => ?_⟩
  exact hwhole.proves hlen hbranch (hcoinbase.trans haround) hinputs hprevious hcommits hbytes h32

private theorem length_around_sample {coinbase : Coinbase} (hextranonce : extranonce.length = 8)
    (h : Coinbase.build sampleTemplate [0x51] ([0x2f] ++ AuxBlock.commitmentTo (List.replicate 32 0xab)) 8 =
      .ok coinbase) : (coinbase.around extranonce).length = 134 := by
  have hsizes : (Coinbase.build sampleTemplate [0x51]
      ([0x2f] ++ AuxBlock.commitmentTo (List.replicate 32 0xab)) 8).toOption.map
        (fun c => (c.initial.length, c.final.length)) = some (46, 80) := by
    decide +kernel
  rw [h] at hsizes
  have hlengths := Prod.mk.inj (Option.some.inj hsizes)
  simp only [Coinbase.around, List.length_append]
  omega

/-- The proof of the sample is short: its coinbase has 134 bytes, and its branch two steps. -/
private theorem length_toBytes_sample {p : AuxPow}
    (hwork : Work.build (some sampleTemplate) (some sampleAux) .dogecoin [0x2f] [0x51] 8 ⟨7⟩ = .ok (work, notify))
    (hextranonce : extranonce.length = 8) (hcoinbase : p.coinbase = work.coinbase.around extranonce)
    (hbranch : p.branch = work.steps) (hwhole : p.Whole) : p.toBytes.length < 2 ^ 64 := by
  obtain ⟨_, signed, coinbase, txids, -, hsigned, hbuild, htxids, rfl, -⟩ :=
    Work.ofTemplate_eq_ok.1 (Work.build_eq_ok.1 hwork)
  obtain ⟨commitment, hcommitment, rfl⟩ := Work.signatureWith_some_eq_ok.1 hsigned
  rw [AuxBlock.commitment_of_hash (Hex.bytes_encode (List.replicate 32 0xab))] at hcommitment
  cases hcommitment
  have hcount : txids.length = 2 := by
    have := congrArg List.length (BlockTemplate.txids_eq_ok.1 htxids).1
    simpa [sampleTemplate] using this.symm
  obtain ⟨first, second, rfl⟩ := List.length_eq_two.1 hcount
  have hsteps : p.branch = [first, combineDigests second second] := by
    rw [hbranch]
    simp [Merkle.branch_cons, Merkle.branch_nil, Merkle.level]
  have h134 := length_around_sample hextranonce hbuild
  have hfirst := (BlockTemplate.txids_eq_ok.1 htxids).2 first List.mem_cons_self
  rw [toBytes, hsteps, hcoinbase]
  simp [h134, hwhole.parentHash, hwhole.header, hfirst, combineDigests, CompactSize.encode]

theorem toText_proves_sample :
    ∃ work notify block sum summed p,
      Work.build (some sampleTemplate) (some sampleAux) .dogecoin [0x2f] [0x51] 8 ⟨7⟩ = .ok (work, notify) ∧
      Hex.IsDigits 64 sampleAux.hash ∧
      (Block.ofWork work).makeHeader [1, 2, 3, 4, 5, 6, 7, 8] ⟨1⟩ ⟨1700000001⟩ = .ok block ∧
      block.sum = .ok (sum, summed) ∧ ofBlock summed = .ok p ∧ p.toBytes.length < 2 ^ 64 ∧
      Proves sampleAux p.header p.toText := by
  obtain ⟨work, notify, hwork, htemplate, -⟩ := @exists_sampleAuxWork sampleAux rfl ⟨7⟩
  obtain ⟨block, hblock⟩ := Block.exists_sampleBlock htemplate [1, 2, 3, 4, 5, 6, 7, 8] ⟨1⟩ ⟨1700000001⟩
  obtain ⟨header, hheader⟩ := Block.exists_header hblock
  have hsum := Block.sum_eq_ok.2 ⟨header, hheader, rfl, rfl⟩
  have hdigits : Hex.IsDigits 64 sampleAux.hash := by decide
  obtain ⟨p, hp, -, hproves⟩ := toText_proves hwork hdigits rfl rfl hblock hsum
  obtain ⟨p', hp', -, hcoinbase, hbranch, hwhole⟩ := ofBlock_of_sum hblock hsum
  cases hp.symm.trans hp'
  have hlen := length_toBytes_sample hwork rfl hcoinbase hbranch hwhole
  exact ⟨work, notify, block, _, _, p, hwork, hdigits, hblock, hsum, hp, hlen, hproves hlen⟩

end AuxPow

end MergedMining
