import MergedMining.Proofs.Coinbase
import MergedMining.Work

/-!
# Jobs and headers that could be built

What a job holds when it could be built from a template (`ofTemplate_eq_ok`), and what a block holds when its
header could be made (`makeHeader_eq_ok`).  Such a header has eighty bytes, with the root of the transactions
from byte 36 on (`length_layout`, `root_in_layout`).
-/

namespace MergedMining

open Stratum (JobId Notify Nonce Ntime)

/-! ### Transactions -/

theorem TemplateTransaction.idBytes_eq_ok {t : TemplateTransaction} {id : Bytes} :
    t.idBytes = .ok id ↔ Hex.bytes t.txid = .ok id.reverse ∧ id.length = 32 :=
  Hex.turned_eq_ok

theorem BlockTemplate.txids_eq_ok {template : BlockTemplate} {ids : List Bytes} :
    template.txids = .ok ids ↔
      template.transactions.map (Hex.bytes ·.txid) = (ids.map List.reverse).map .ok ∧ ∀ id ∈ ids, id.length = 32 := by
  rw [BlockTemplate.txids, Outcome.mapM_eq_ok]
  generalize template.transactions = ts
  induction ts generalizing ids with
  | nil => rcases ids with _ | ⟨id, ids⟩ <;> simp
  | cons t ts ih =>
    rcases ids with _ | ⟨id, ids⟩
    · simp
    · simp only [List.map_cons, List.cons.injEq, ih, TemplateTransaction.idBytes_eq_ok, List.mem_cons,
        forall_eq_or_imp]
      exact and_and_and_comm

/-! ### Jobs -/

namespace Work

theorem notify_eq_ok {w : Work} {clean : Bool} {notify : Notify} :
    w.notify clean = .ok notify ↔ w.template.time.toNat < UInt32.size ∧ notify = {
      jobId := w.jobId
      prevhash := w.prevhash
      coinb1 := Hex.encode w.coinbase.initial
      coinb2 := Hex.encode w.coinbase.final
      branches := w.steps.map Hex.encode
      version := ⟨w.template.version⟩
      bits := w.template.bits
      ntime := ⟨UInt32.ofNat w.template.time.toNat⟩
      clean } := by
  unfold Work.notify
  by_cases htime : w.template.time.toNat < UInt32.size
  · rw [if_pos htime, Except.ok.injEq]
    exact ⟨fun h => ⟨htime, h.symm⟩, fun h => h.2.symm⟩
  · rw [if_neg htime]
    exact ⟨nofun, fun h => absurd h.1 htime⟩

theorem ofTemplate_eq_ok {template : BlockTemplate} {aux : Option AuxBlock} {chain : Chain} {signature script : Bytes}
    {reserved : Nat} {jobId : JobId} {work : Work} {notify : Notify} :
    ofTemplate template aux chain signature script reserved jobId = .ok (work, notify) ↔
      ∃ prevhash signed coinbase txids, Hex.reverseWords template.previousHash = .ok prevhash ∧
        signatureWith signature aux = .ok signed ∧ Coinbase.build template script signed reserved = .ok coinbase ∧
        template.txids = .ok txids ∧
        work = ⟨jobId, chain, template, aux, prevhash, coinbase, Merkle.branch combineDigests txids⟩ ∧
        work.notify false = .ok notify := by
  simp only [ofTemplate, Outcome.bind_eq_ok]
  constructor
  · rintro ⟨prevhash, hprev, signed, hsigned, coinbase, hcoinbase, txids, htxids, notify', hnotify, h⟩
    cases h
    exact ⟨prevhash, signed, coinbase, txids, hprev, hsigned, hcoinbase, htxids, rfl, hnotify⟩
  · rintro ⟨prevhash, signed, coinbase, txids, hprev, hsigned, hcoinbase, htxids, rfl, hnotify⟩
    exact ⟨prevhash, hprev, signed, hsigned, coinbase, hcoinbase, txids, htxids, notify, hnotify, rfl⟩

theorem template_eq {template : BlockTemplate} {aux : Option AuxBlock} {chain : Chain} {signature script : Bytes}
    {reserved : Nat} {jobId : JobId} {work : Work} {notify : Notify}
    (h : ofTemplate template aux chain signature script reserved jobId = .ok (work, notify)) :
    work.template = template := by
  obtain ⟨_, _, _, _, -, -, -, -, rfl, -⟩ := ofTemplate_eq_ok.1 h
  rfl

/-- A job that could be built could have been built under any id. -/
theorem ofTemplate_withId {template : BlockTemplate} {aux : Option AuxBlock} {chain : Chain}
    {signature script : Bytes} {reserved : Nat} {jobId : JobId} {work : Work} {notify : Notify} (other : JobId)
    (h : ofTemplate template aux chain signature script reserved jobId = .ok (work, notify)) :
    ofTemplate template aux chain signature script reserved other =
      .ok ({ work with jobId := other }, { notify with jobId := other }) := by
  obtain ⟨prevhash, signed, coinbase, txids, hprevhash, hsigned, hcoinbase, htxids, rfl, hnotify⟩ :=
    ofTemplate_eq_ok.1 h
  obtain ⟨htime, rfl⟩ := notify_eq_ok.1 hnotify
  exact ofTemplate_eq_ok.2 ⟨prevhash, signed, coinbase, txids, hprevhash, hsigned, hcoinbase, htxids, rfl,
    notify_eq_ok.2 ⟨htime, rfl⟩⟩

theorem build_eq_ok {template : BlockTemplate} {aux : Option AuxBlock} {chain : Chain} {signature script : Bytes}
    {reserved : Nat} {jobId : JobId} {result : Work × Notify} :
    build (some template) aux chain signature script reserved jobId = .ok result ↔
      ofTemplate template aux chain signature script reserved jobId = .ok result :=
  Outcome.mapError_eq_ok

end Work

/-- A template with two transactions, a witness commitment and a block of an extension chain. -/
def sampleTemplate : BlockTemplate where
  version := 0x20000000
  previousHash := Hex.encode (List.replicate 32 0x6c)
  height := 4800000
  value := 1000000000000
  witnessCommitment := some (Hex.encode [0x6a, 0x24])
  bits := Hex.encode [0x1a, 0x01, 0xe0, 0xca]
  target := .max
  transactions := [⟨"0100", Hex.encode (List.replicate 32 0x11), 0⟩, ⟨"0200", Hex.encode (List.replicate 32 0x22), 0⟩]
  time := 1700000000
  extension := some "abcdef"

theorem exists_sampleWork :
    ∃ work notify, Work.build (some sampleTemplate) none .dogecoin [0x2f] [0x51] 8 ⟨7⟩ = .ok (work, notify) := by
  have hprev : Hex.reverseWords sampleTemplate.previousHash = .ok (Hex.encode (List.replicate 32 0x6c)) := by
    simp [Hex.reverseWords, sampleTemplate]
    rfl
  have hids : sampleTemplate.txids = .ok [List.replicate 32 0x11, List.replicate 32 0x22] := by
    rw [BlockTemplate.txids_eq_ok]
    simp [sampleTemplate]
  obtain ⟨os, hos⟩ : ∃ os, Coinbase.outputs sampleTemplate [0x51] = .ok os := by
    refine ⟨_, Coinbase.outputs_eq_ok.2 ⟨[[0x6a, 0x24]], ⟨fun h => ?_, fun text htext _ => ⟨_, ?_, rfl⟩⟩, rfl⟩⟩
    · have hne : Hex.encode [0x6a, 0x24] ≠ "" := by decide
      exact absurd h hne
    · cases htext
      exact Hex.bytes_encode _
  have hc : Coinbase.build sampleTemplate [0x51] [0x2f] 8 = .ok _ :=
    Coinbase.build_eq_ok.2 ⟨by decide, os, hos, rfl⟩
  have htime : sampleTemplate.time.toNat < UInt32.size := by decide
  exact ⟨_, _, Work.build_eq_ok.2 (Work.ofTemplate_eq_ok.2 ⟨_, _, _, _, hprev, rfl, hc, hids, rfl,
    Work.notify_eq_ok.2 ⟨htime, rfl⟩⟩)⟩

/-! ### Headers -/

namespace Block

@[simp] theorem length_toBytes {role : Stratum.WordRole} (w : Stratum.Word role) : w.toBytes.length = 4 :=
  Bytes.length_ofNatBE 4 _

@[simp] theorem length_merkleRoot (work : Work) (coinbase : Bytes) : (merkleRoot work coinbase).length = 32 := by
  have hfold : ∀ (steps : List Bytes) (leaf : Bytes), leaf.length = 32 →
      (Merkle.fold combineDigests leaf steps).length = 32 := by
    intro steps
    induction steps with
    | nil => exact fun _ h => h
    | cons step steps ih => exact fun _ _ => ih _ (length_sha256d _)
  exact hfold work.steps _ (length_sha256d coinbase)

theorem previousHash_eq_ok {template : BlockTemplate} {bytes : Bytes} :
    previousHash template = .ok bytes ↔ Hex.bytes template.previousHash = .ok bytes.reverse ∧ bytes.length = 32 :=
  Hex.turned_eq_ok

theorem bits_eq_ok {template : BlockTemplate} {bytes : Bytes} :
    bits template = .ok bytes ↔ Hex.bytes template.bits = .ok bytes.reverse ∧ bytes.length = 4 :=
  Hex.turned_eq_ok

/-- The fields of a header in their order. -/
def layout (version : UInt32) (previous root : Bytes) (ntime : Ntime) (bits : Bytes) (nonce : Nonce) : Bytes :=
  Bytes.ofNatLE 4 version.toNat ++ previous ++ root ++ ntime.toBytes.reverse ++ bits ++ nonce.toBytes.reverse

theorem length_layout (version : UInt32) {previous root bits : Bytes} (ntime : Ntime) (nonce : Nonce)
    (hprevious : previous.length = 32) (hroot : root.length = 32) (hbits : bits.length = 4) :
    (layout version previous root ntime bits nonce).length = 80 := by
  simp [layout, hprevious, hroot, hbits]

theorem root_in_layout (version : UInt32) {previous root bits : Bytes} (ntime : Ntime) (nonce : Nonce)
    (hprevious : previous.length = 32) (hroot : root.length = 32) :
    ((layout version previous root ntime bits nonce).drop 36).take 32 = root := by
  have hfront : (Bytes.ofNatLE 4 version.toNat ++ previous).length = 36 := by simp [hprevious]
  simp only [layout, List.append_assoc]
  rw [← List.append_assoc, List.drop_left' hfront, List.take_left' hroot]

theorem makeHeader_eq_ok {b block : Block} {extranonce : Bytes} {nonce : Nonce} {ntime : Ntime} :
    b.makeHeader extranonce nonce ntime = .ok block ↔
      ∃ previous bits, previousHash b.work.template = .ok previous ∧ Block.bits b.work.template = .ok bits ∧
        block = ⟨b.work, b.work.coinbase.around extranonce,
          some (layout b.work.template.version previous
            (merkleRoot b.work (b.work.coinbase.around extranonce)) ntime bits nonce), none⟩ := by
  simp only [makeHeader, headerBytes, Outcome.map_eq_ok, Outcome.bind_eq_ok]
  constructor
  · rintro ⟨header, ⟨previous, hprevious, bits, hbits, h⟩, rfl⟩
    cases h
    exact ⟨previous, bits, hprevious, hbits, rfl⟩
  · rintro ⟨previous, bits, hprevious, hbits, rfl⟩
    exact ⟨_, ⟨previous, hprevious, bits, hbits, rfl⟩, rfl⟩

theorem exists_header {b block : Block} {extranonce : Bytes} {nonce : Nonce} {ntime : Ntime}
    (h : b.makeHeader extranonce nonce ntime = .ok block) : ∃ header, block.header = some header := by
  obtain ⟨_, _, -, -, rfl⟩ := makeHeader_eq_ok.1 h
  exact ⟨_, rfl⟩

/-- The header of an answer to a job does not depend on the id of the job. -/
theorem makeHeader_withId {work : Work} {extranonce : Bytes} {nonce : Nonce} {ntime : Ntime} {block : Block}
    (other : JobId) (h : (ofWork work).makeHeader extranonce nonce ntime = .ok block) :
    (ofWork { work with jobId := other }).makeHeader extranonce nonce ntime =
      .ok { block with work := { work with jobId := other } } := by
  obtain ⟨previous, bits, hprevious, hbits, rfl⟩ := makeHeader_eq_ok.1 h
  exact makeHeader_eq_ok.2 ⟨previous, bits, hprevious, hbits, rfl⟩

theorem exists_sampleBlock {work : Work} (hwork : work.template = sampleTemplate) (extranonce : Bytes) (nonce : Nonce)
    (ntime : Ntime) : ∃ block, (Block.ofWork work).makeHeader extranonce nonce ntime = .ok block := by
  have hprevious : previousHash sampleTemplate = .ok (List.replicate 32 0x6c) := by
    rw [previousHash_eq_ok]
    simp [sampleTemplate]
  have hbits : bits sampleTemplate = .ok [0xca, 0xe0, 0x01, 0x1a] := by
    rw [bits_eq_ok]
    simp [sampleTemplate]
  rw [← hwork] at hprevious hbits
  exact ⟨_, makeHeader_eq_ok.2 ⟨_, _, hprevious, hbits, rfl⟩⟩

theorem sum_eq_ok {b summed : Block} {sum : Target} :
    b.sum = .ok (sum, summed) ↔ ∃ header, b.header = some header ∧ sum = Target.ofBytesBE (scrypt header).reverse ∧
      summed = { b with hash := some (scrypt header).reverse } := by
  unfold Block.sum
  rcases b.header with _ | header
  · simp
  · generalize (scrypt header).reverse = digest
    simp [eq_comm]

end Block

end MergedMining
