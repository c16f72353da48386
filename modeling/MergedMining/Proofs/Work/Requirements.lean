import MergedMining.Proofs.Target
import MergedMining.Proofs.Work.Header

/-!
# What jobs need

To be built, a job needs little of its template: words of digits for the previous hash, a witness commitment and
transaction ids that are byte strings, a time of four bytes (`exists_build_iff`).  A merge-mined block has to
have a hash that is a byte string and leaves room for itself behind the signature (`exists_build_some_iff`).
What answers to the job need is looked at later: a previous hash of 32 bytes and bits of four
(`exists_makeHeader_iff`), and a target for the merge-mined block (`exists_target_iff`).
-/

namespace MergedMining

open Stratum (JobId Notify Nonce Ntime)

/-- The bytes that commit a coinbase to a merge-mined block: a marker, the hash of the block, and a tree with
one leaf. -/
def AuxBlock.commitmentTo (hash : Bytes) : Bytes :=
  [0xfa, 0xbe, 0x6d, 0x6d] ++ hash ++ [1, 0, 0, 0, 0, 0, 0, 0, 0, 0, 0x26, 0x32]

theorem AuxBlock.commitment_of_hash {aux : AuxBlock} {hash : Bytes} (h : Hex.bytes aux.hash = .ok hash) :
    aux.commitment = .ok (commitmentTo hash) := by
  have hmarker : "fabe6d6d" = Hex.encode [0xfa, 0xbe, 0x6d, 0x6d] := by decide +kernel
  have htree : "010000000000000000002632" = Hex.encode [1, 0, 0, 0, 0, 0, 0, 0, 0, 0, 0x26, 0x32] := by
    decide +kernel
  rw [commitment, hmarker, htree]
  exact Hex.bytes_append (Hex.bytes_append (Hex.bytes_encode _) h) (Hex.bytes_encode _)

/-- The commitment takes sixteen bytes more than the hash. -/
theorem AuxBlock.exists_commitment_iff {aux : AuxBlock} {count : Nat} :
    (∃ commitment, aux.commitment = .ok commitment ∧ commitment.length = 16 + count) ↔
      Hex.IsDigits (2 * count) aux.hash := by
  have hmarker : Hex.IsDigits 8 "fabe6d6d" := by decide
  have htree : Hex.IsDigits 24 "010000000000000000002632" := by decide
  unfold Hex.IsDigits Hex.isDigits at hmarker htree
  rw [commitment, Hex.exists_bytes_iff_isDigits]
  simp only [Hex.IsDigits, Hex.isDigits, String.toList_append, List.all_append, List.length_append, hmarker, htree,
    Bool.true_and, Bool.and_true]
  constructor
  · rintro ⟨hdigits, hlen⟩
    exact ⟨hdigits, by omega⟩
  · rintro ⟨hdigits, hlen⟩
    exact ⟨hdigits, by omega⟩

theorem AuxBlock.isDigits_of_commitment {aux : AuxBlock} {commitment : Bytes} (h : aux.commitment = .ok commitment) :
    ∃ count, Hex.IsDigits (2 * count) aux.hash ∧ commitment.length = 16 + count := by
  have hlong : 16 ≤ commitment.length := by
    obtain ⟨-, hlen⟩ := Hex.exists_bytes_iff_isDigits.1 ⟨commitment, h, rfl⟩
    rw [String.toList_append, String.toList_append, List.length_append, List.length_append] at hlen
    have hmarker : "fabe6d6d".toList.length = 8 := by decide
    have htree : "010000000000000000002632".toList.length = 24 := by decide
    omega
  exact ⟨commitment.length - 16, exists_commitment_iff.1 ⟨commitment, h, by omega⟩, by omega⟩

/-- A merge-mined block whose commitment can be written behind a signature, in the 255 bytes that there are for
both. -/
def AuxBlock.FitsBehind (aux : AuxBlock) (signature : Bytes) : Prop :=
  ∃ count, Hex.IsDigits (2 * count) aux.hash ∧ signature.length + (16 + count) < 256

/-! ### To be built -/

namespace Work

variable {template : BlockTemplate} {aux : Option AuxBlock} {chain : Chain} {signature script : Bytes}
  {reserved : Nat} {jobId : JobId}

theorem signatureWith_some_eq_ok {a : AuxBlock} {signed : Bytes} :
    signatureWith signature (some a) = .ok signed ↔ ∃ commitment, a.commitment = .ok commitment ∧
      signed = signature ++ commitment := by
  rw [signatureWith, Outcome.map_eq_ok]
  constructor
  · rintro ⟨commitment, hcommitment, rfl⟩
    exact ⟨commitment, hcommitment, rfl⟩
  · rintro ⟨commitment, hcommitment, rfl⟩
    exact ⟨commitment, hcommitment, rfl⟩

/-- A job keeps what it was built from. -/
theorem kept_of_build {work : Work} {notify : Notify}
    (h : build (some template) aux chain signature script reserved jobId = .ok (work, notify)) :
    work.template = template ∧ work.aux = aux ∧ work.jobId = jobId := by
  obtain ⟨_, _, _, _, -, -, -, -, rfl, -⟩ := ofTemplate_eq_ok.1 (build_eq_ok.1 h)
  exact ⟨rfl, rfl, rfl⟩

/-- All that a job needs. -/
theorem exists_build_iff :
    (∃ result, build (some template) aux chain signature script reserved jobId = .ok result) ↔
      (∃ words, Hex.reverseWords template.previousHash = .ok words) ∧
      (∃ signed, signatureWith signature aux = .ok signed ∧ signed.length < 256) ∧
      (∃ outputs, Coinbase.outputs template script = .ok outputs) ∧ (∃ ids, template.txids = .ok ids) ∧
      template.time.toNat < UInt32.size := by
  constructor
  · rintro ⟨⟨work, notify⟩, h⟩
    obtain ⟨words, signed, coinbase, ids, hwords, hsigned, hcoinbase, hids, rfl, hnotify⟩ :=
      ofTemplate_eq_ok.1 (build_eq_ok.1 h)
    obtain ⟨hlen, outputs, houtputs, -⟩ := Coinbase.build_eq_ok.1 hcoinbase
    have htime := (notify_eq_ok.1 hnotify).1
    exact ⟨⟨words, hwords⟩, ⟨signed, hsigned, hlen⟩, ⟨outputs, houtputs⟩, ⟨ids, hids⟩, htime⟩
  · rintro ⟨⟨words, hwords⟩, ⟨signed, hsigned, hlen⟩, ⟨outputs, houtputs⟩, ⟨ids, hids⟩, htime⟩
    have hcoinbase : Coinbase.build template script signed reserved = .ok _ :=
      Coinbase.build_eq_ok.2 ⟨hlen, outputs, houtputs, rfl⟩
    exact ⟨_, build_eq_ok.2 (ofTemplate_eq_ok.2
      ⟨words, signed, _, ids, hwords, hsigned, hcoinbase, hids, rfl, notify_eq_ok.2 ⟨htime, rfl⟩⟩)⟩

/-- With a merge-mined block a job can be built exactly if it can be built without, and the commitment to the
block is a byte string that fits behind the signature. -/
theorem exists_build_some_iff {a : AuxBlock} :
    (∃ result, build (some template) (some a) chain signature script reserved jobId = .ok result) ↔
      (∃ result, build (some template) none chain signature script reserved jobId = .ok result) ∧
      a.FitsBehind signature := by
  rw [exists_build_iff, exists_build_iff]
  constructor
  · rintro ⟨hwords, ⟨signed, hsigned, hlen⟩, hrest⟩
    obtain ⟨commitment, hcommitment, rfl⟩ := signatureWith_some_eq_ok.1 hsigned
    rw [List.length_append] at hlen
    have hshort : signature.length < 256 := by omega
    obtain ⟨count, hdigits, hcount⟩ := AuxBlock.isDigits_of_commitment hcommitment
    exact ⟨⟨hwords, ⟨signature, rfl, hshort⟩, hrest⟩, count, hdigits, by omega⟩
  · rintro ⟨⟨hwords, -, hrest⟩, count, hdigits, hlen⟩
    obtain ⟨commitment, hcommitment, hcount⟩ := AuxBlock.exists_commitment_iff.2 hdigits
    have hsigned := signatureWith_some_eq_ok.2 ⟨commitment, hcommitment, (rfl : _ = signature ++ commitment)⟩
    exact ⟨hwords, ⟨_, hsigned, by rw [List.length_append]; omega⟩, hrest⟩

end Work

/-! ### To be checked -/

/-- A header can be made of any answer to a job, if the previous hash and the bits of its template have the
right sizes, and of none if they have not. -/
theorem Block.exists_makeHeader_iff {b : Block} {extranonce : Bytes} {nonce : Nonce} {ntime : Ntime} :
    (∃ block, b.makeHeader extranonce nonce ntime = .ok block) ↔
      Hex.IsDigits 64 b.work.template.previousHash ∧ Hex.IsDigits 8 b.work.template.bits := by
  rw [← @Hex.exists_bytes_iff_isDigits _ 32, ← @Hex.exists_bytes_iff_isDigits _ 4]
  constructor
  · rintro ⟨block, h⟩
    obtain ⟨previous, bits, hprevious, hbits, -⟩ := makeHeader_eq_ok.1 h
    obtain ⟨hread, h32⟩ := previousHash_eq_ok.1 hprevious
    obtain ⟨hread', h4⟩ := bits_eq_ok.1 hbits
    exact ⟨⟨_, hread, by rwa [List.length_reverse]⟩, _, hread', by rwa [List.length_reverse]⟩
  · rintro ⟨⟨previous, hread, h32⟩, bits, hread', h4⟩
    have hprevious : previousHash b.work.template = .ok previous.reverse := by
      rw [previousHash_eq_ok, List.reverse_reverse, List.length_reverse]
      exact ⟨hread, h32⟩
    have hbits : Block.bits b.work.template = .ok bits.reverse := by
      rw [bits_eq_ok, List.reverse_reverse, List.length_reverse]
      exact ⟨hread', h4⟩
    exact ⟨_, makeHeader_eq_ok.2 ⟨_, _, hprevious, hbits, rfl⟩⟩

/-- A target of at least one byte, and at most thirty-two. -/
def AuxBlock.HasTarget (aux : AuxBlock) : Prop :=
  ∃ count, 0 < count ∧ count ≤ 32 ∧ Hex.IsDigits (2 * count) aux.targetText

theorem AuxBlock.exists_target_iff {aux : AuxBlock} : (∃ target, aux.target = .ok target) ↔ aux.HasTarget := by
  constructor
  · rintro ⟨target, h⟩
    obtain ⟨bs, hbs, h0, h32, -⟩ := Target.parseLE_eq_ok.1 h
    exact ⟨bs.length, h0, h32, Hex.exists_bytes_iff_isDigits.1 ⟨bs, hbs, rfl⟩⟩
  · rintro ⟨count, h0, h32, hdigits⟩
    obtain ⟨bs, hbs, rfl⟩ := Hex.exists_bytes_iff_isDigits.2 hdigits
    exact ⟨_, Target.parseLE_eq_ok.2 ⟨bs, hbs, h0, h32, rfl⟩⟩

theorem Work.exists_auxTarget_iff {work : Work} :
    (∃ target, work.auxTarget = .ok target) ↔ ∀ aux ∈ work.aux, aux.HasTarget := by
  rw [auxTarget]
  rcases work.aux with _ | aux
  · simp
  · simp only [Option.mem_some_iff, forall_eq', ← AuxBlock.exists_target_iff, Outcome.map_eq_ok]
    constructor
    · rintro ⟨_, target, htarget, -⟩
      exact ⟨target, htarget⟩
    · rintro ⟨target, htarget⟩
      exact ⟨_, target, htarget, rfl⟩

/-! ### A sample -/

/-- A merge-mined block that every digest reaches. -/
def sampleAux : AuxBlock where
  hash := Hex.encode (List.replicate 32 0xab)
  chainId := 98
  previousHash := Hex.encode (List.replicate 32 0x44)
  coinbaseHash := Hex.encode (List.replicate 32 0x33)
  value := 1000000000000
  bits := Hex.encode [0x1a, 0x01, 0xe0, 0xca]
  height := 5000000
  targetText := Hex.encode (List.replicate 32 0xff)

theorem sampleAux_hasTarget : sampleAux.HasTarget := ⟨32, by decide, by decide, by decide⟩

/-- A job for the sample template can be built with every block that has the hash of the sample. -/
theorem exists_sampleAuxWork {aux : AuxBlock} (h : aux.hash = sampleAux.hash) (jobId : JobId) : ∃ work notify,
    Work.build (some sampleTemplate) (some aux) .dogecoin [0x2f] [0x51] 8 jobId = .ok (work, notify) ∧
      work.template = sampleTemplate ∧ work.aux = some aux ∧ work.jobId = jobId := by
  obtain ⟨work, notify, hwork⟩ := exists_sampleWork
  have hwithId := Work.build_eq_ok.2 (Work.ofTemplate_withId jobId (Work.build_eq_ok.1 hwork))
  have hfits : aux.FitsBehind [0x2f] := by
    refine ⟨32, ?_, by decide⟩
    rw [h]
    decide
  obtain ⟨⟨work', notify'⟩, hresult⟩ := Work.exists_build_some_iff.2 ⟨⟨_, hwithId⟩, hfits⟩
  exact ⟨work', notify', hresult, Work.kept_of_build hresult⟩

end MergedMining
