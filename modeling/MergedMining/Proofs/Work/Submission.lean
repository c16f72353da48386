import MergedMining.Proofs.Merkle
import MergedMining.Proofs.Work.Header

/-!
# The block that is handed in

A block that was rebuilt from a miner's answer is handed in as one text.  Its parts agree with each other
(`submission_isBlockText`): the header commits to the coinbase that follows it and to the transactions behind
that, through the root of the whole tree over their digests.
-/

namespace MergedMining

open Stratum (JobId Notify Nonce Ntime)

namespace Block

/-- The tree over the coinbase and the transactions of a template has the root that the branch of its job leads to. -/
private theorem root_eq_merkleRoot {template : BlockTemplate} {aux : Option AuxBlock} {chain : Chain}
    {signature script : Bytes} {reserved : Nat} {jobId : JobId} {work : Work} {notify : Notify}
    (hwork : Work.ofTemplate template aux chain signature script reserved jobId = .ok (work, notify))
    (coinbase : Bytes) :
    ∃ txids, template.txids = .ok txids ∧
      Merkle.root combineDigests (sha256d coinbase :: txids) = some (merkleRoot work coinbase) := by
  obtain ⟨prevhash, signed, halves, txids, -, -, -, htxids, rfl, -⟩ := Work.ofTemplate_eq_ok.1 hwork
  exact ⟨txids, htxids, Merkle.root_cons combineDigests _ _⟩

private theorem extensionText_of_some {data : String} (h : data ≠ "") : extensionText (some data) = "01" ++ data := by
  simp [extensionText, h]

private theorem extensionText_of_empty {extension : Option String} (h : extension.getD "" = "") :
    extensionText extension = "" := by
  rcases extension with _ | data
  · rfl
  · simp only [Option.getD_some] at h
    simp [extensionText, h]

private theorem submission_of_header {b : Block} {header : Bytes} (h : b.header = some header) :
    b.submission = .ok (Hex.encode header ++
      Hex.encode (CompactSize.encode (b.work.template.transactions.length + 1)) ++ Hex.encode b.coinbase ++
      String.join (b.work.template.transactions.map (·.data)) ++ extensionText b.work.template.extension) := by
  rw [submission, h]

/-- The form of a text that a block of a template is handed in as: the header, the number of transactions, the
coinbase, the data of the other transactions, and `01` with the block of the extension chain when there is one.
The header holds the root of the tree over the digest of that coinbase and the shown ids of those transactions,
each turned round. -/
def IsBlockText (template : BlockTemplate) (coinbase : Bytes) (text : String) : Prop :=
  ∃ (header : Bytes) (shown : List Bytes) (tail : String),
    text = Hex.encode header ++ Hex.encode (CompactSize.encode (template.transactions.length + 1)) ++
      Hex.encode coinbase ++ String.join (template.transactions.map (·.data)) ++ tail ∧
    header.length = 80 ∧
    (∀ data, template.extension = some data → data ≠ "" → tail = "01" ++ data) ∧
    (template.extension.getD "" = "" → tail = "") ∧
    template.transactions.map (Hex.bytes ·.txid) = shown.map .ok ∧
    Merkle.root combineDigests (sha256d coinbase :: shown.map List.reverse) = some ((header.drop 36).take 32)

/-- Every block with a header can be handed in, in the form above, and working out its sum changes nothing. -/
theorem submission_isBlockText {template : BlockTemplate} {aux : Option AuxBlock} {chain : Chain}
    {signature script : Bytes} {reserved : Nat} {jobId : JobId} {work : Work} {notify : Notify} {b block : Block}
    {extranonce : Bytes} {nonce : Nonce} {ntime : Ntime}
    (hwork : Work.build (some template) aux chain signature script reserved jobId = .ok (work, notify))
    (hb : b.work = work) (hblock : b.makeHeader extranonce nonce ntime = .ok block) :
    ∃ text, block.submission = .ok text ∧ IsBlockText template (work.coinbase.around extranonce) text ∧
      ∀ sum summed, block.sum = .ok (sum, summed) → summed.submission = .ok text := by
  subst hb
  have hbuilt := Work.build_eq_ok.1 hwork
  obtain ⟨txids, htxids, hroot⟩ := root_eq_merkleRoot hbuilt (b.work.coinbase.around extranonce)
  have htemplate := Work.template_eq hbuilt
  obtain ⟨previous, bits, hprevious, hbits, hmade⟩ := makeHeader_eq_ok.1 hblock
  have hlen := (previousHash_eq_ok.1 hprevious).2
  have hfour := (bits_eq_ok.1 hbits).2
  have hroot32 := length_merkleRoot b.work (b.work.coinbase.around extranonce)
  obtain ⟨header, hlayout⟩ : ∃ header, header = layout b.work.template.version previous
    (merkleRoot b.work (b.work.coinbase.around extranonce)) ntime bits nonce := ⟨_, rfl⟩
  rw [← hlayout] at hmade
  subst hmade
  refine ⟨_, submission_of_header rfl, ⟨header, txids.map List.reverse, extensionText template.extension, ?_, ?_, ?_,
    extensionText_of_empty, (BlockTemplate.txids_eq_ok.1 htxids).1, ?_⟩, ?_⟩
  · rw [htemplate]
  · rw [hlayout]
    exact length_layout _ ntime nonce hlen hroot32 hfour
  · intro data hdata hne
    rw [hdata, extensionText_of_some hne]
  · rw [hlayout, root_in_layout _ ntime nonce hlen hroot32]
    simpa [Function.comp_def] using hroot
  · intro sum summed hsum
    obtain ⟨_, -, -, rfl⟩ := sum_eq_ok.1 hsum
    exact submission_of_header rfl

theorem submission_isBlockText_sample :
    ∃ work notify block text,
      Work.build (some sampleTemplate) none .dogecoin [0x2f] [0x51] 8 ⟨7⟩ = .ok (work, notify) ∧
      (Block.ofWork work).makeHeader [1, 2, 3, 4, 5, 6, 7, 8] ⟨1⟩ ⟨1700000001⟩ = .ok block ∧
      block.submission = .ok text ∧
      IsBlockText sampleTemplate (work.coinbase.around [1, 2, 3, 4, 5, 6, 7, 8]) text := by
  obtain ⟨work, notify, hwork⟩ := exists_sampleWork
  obtain ⟨block, hblock⟩ := exists_sampleBlock (Work.template_eq (Work.build_eq_ok.1 hwork))
    [1, 2, 3, 4, 5, 6, 7, 8] ⟨1⟩ ⟨1700000001⟩
  obtain ⟨text, htext, hform, -⟩ := submission_isBlockText hwork rfl hblock
  exact ⟨work, notify, block, text, hwork, hblock, htext, hform⟩

end Block

end MergedMining
