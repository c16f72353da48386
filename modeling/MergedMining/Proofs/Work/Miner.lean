import MergedMining.Proofs.Work.Header

/-!
# The header that a miner builds

A miner knows of a job only what its message says: nine fields, most of them text.  From these it builds the
same header that the pool rebuilds from the template (`header?_eq_makeHeader`).
-/

namespace MergedMining

open Stratum (JobId Notify Nonce Ntime)

namespace Miner

/-- The byte string of a text, if it is one. -/
def hex? (s : String) : Option Bytes := (Hex.decode s).toOption

/-- The header of an answer to a job, built from the fields of the message that handed out the job. -/
def header? (fields : Json) (extranonce1 extranonce2 : Bytes) (ntime : Ntime) (nonce : Nonce) : Option Bytes :=
  match fields with
  | .arr [_, .str prevhash, .str coinb1, .str coinb2, .arr branches, .str version, .str nbits, _, _] => do
    let initial ← hex? coinb1
    let final ← hex? coinb2
    let steps ← branches.mapM fun branch => branch.toStr?.bind hex?
    let version ← hex? version
    let previous ← hex? prevhash
    let bits ← hex? nbits
    let coinbase := initial ++ extranonce1 ++ extranonce2 ++ final
    let root := steps.foldl (fun node step => sha256d (node ++ step)) (sha256d coinbase)
    return version.reverse ++ Hex.swapWords previous ++ root ++ ntime.toBytes.reverse ++ bits.reverse ++
      nonce.toBytes.reverse
  | _ => none

@[simp] theorem hex?_encode (bs : Bytes) : hex? (Hex.encode bs) = some bs := by
  rw [hex?, Hex.decode_encode]
  rfl

theorem hex?_of_bytes {s : String} {bs : Bytes} (h : Hex.bytes s = .ok bs) : hex? s = some bs := by
  rw [hex?, Hex.decode_of_bytes h]
  rfl

private theorem hex?_version (version : UInt32) :
    hex? (Stratum.Word.toText (⟨version⟩ : Stratum.Version)) = some (Bytes.ofNatBE 4 version.toNat) := by
  rw [hex?, Hex.decode_toText]
  rfl

private theorem mapM_hex?_encode (steps : List Bytes) :
    ((steps.map Hex.encode).map Json.str).mapM (fun branch => branch.toStr?.bind hex?) = some steps := by
  induction steps with
  | nil => rfl
  | cons step steps ih =>
    have hfirst : (Json.str (Hex.encode step)).toStr?.bind hex? = some step := hex?_encode step
    rw [List.map_cons, List.map_cons, List.mapM_cons, hfirst, ih]
    rfl

private theorem swapWords_of_reverseWords {s t : String} {bs : Bytes} (ht : Hex.reverseWords s = .ok t)
    (hs : Hex.bytes s = .ok bs.reverse) (hlen : bs.length = 32) :
    ∃ words, hex? t = some words ∧ Hex.swapWords words = bs := by
  obtain ⟨bs', hbs', -, rfl⟩ := Hex.reverseWords_eq_ok.1 ht
  rw [hs] at hbs'
  cases hbs'
  refine ⟨_, hex?_encode _, ?_⟩
  rw [Hex.swapWords_reverseWordBytes (by simp [hlen]), List.reverse_reverse]

/-- From the message of a job a miner builds the header that the pool builds from the template, whatever the
message says about earlier jobs. -/
theorem header?_eq_makeHeader {template : BlockTemplate} {aux : Option AuxBlock} {chain : Chain}
    {signature script : Bytes} {reserved : Nat} {jobId : JobId} {work : Work} {notify : Notify} {b block : Block}
    {extranonce1 extranonce2 : Bytes} {nonce : Nonce} {ntime : Ntime} (clean : Bool)
    (hwork : Work.build (some template) aux chain signature script reserved jobId = .ok (work, notify))
    (hb : b.work = work) (hblock : b.makeHeader (extranonce1 ++ extranonce2) nonce ntime = .ok block) :
    ∃ header, block.header = some header ∧
      header? (notify.withClean clean).toJson extranonce1 extranonce2 ntime nonce = some header := by
  subst hb
  have hbuilt := Work.build_eq_ok.1 hwork
  have htemplate := Work.template_eq hbuilt
  obtain ⟨prevhash, _, _, _, hprevhash, -, -, -, hw, hnotify⟩ := Work.ofTemplate_eq_ok.1 hbuilt
  obtain ⟨-, rfl⟩ := Work.notify_eq_ok.1 hnotify
  obtain ⟨previous, bits, hprevious, hbits, rfl⟩ := Block.makeHeader_eq_ok.1 hblock
  rw [htemplate] at hprevious hbits
  obtain ⟨hprevious, hlen⟩ := Block.previousHash_eq_ok.1 hprevious
  obtain ⟨hbits, -⟩ := Block.bits_eq_ok.1 hbits
  -- the words of the previous hash were turned round once by the pool and are turned round again by the miner
  obtain ⟨words, hwords, hswapped⟩ := swapWords_of_reverseWords hprevhash hprevious hlen
  have hprev : b.work.prevhash = prevhash := by rw [hw]
  refine ⟨_, rfl, ?_⟩
  simp only [Notify.withClean, Notify.toJson, header?, hex?_encode, mapM_hex?_encode, hex?_version, hprev, hwords,
    hex?_of_bytes hbits, htemplate, Option.bind_eq_bind, Option.bind_some, hswapped]
  simp only [Block.layout, Block.merkleRoot, Merkle.fold, Coinbase.around, Bytes.ofNatBE, List.reverse_reverse,
    List.append_assoc]
  rfl

theorem header?_eq_makeHeader_sample :
    ∃ work notify block header,
      Work.build (some sampleTemplate) none .dogecoin [0x2f] [0x51] 8 ⟨7⟩ = .ok (work, notify) ∧
      (Block.ofWork work).makeHeader ([1, 2, 3, 4] ++ [5, 6, 7, 8]) ⟨1⟩ ⟨1700000001⟩ = .ok block ∧
      block.header = some header ∧
      header? (notify.withClean true).toJson [1, 2, 3, 4] [5, 6, 7, 8] ⟨1700000001⟩ ⟨1⟩ = some header := by
  obtain ⟨work, notify, hwork⟩ := exists_sampleWork
  obtain ⟨block, hblock⟩ := Block.exists_sampleBlock (Work.template_eq (Work.build_eq_ok.1 hwork))
    ([1, 2, 3, 4] ++ [5, 6, 7, 8]) ⟨1⟩ ⟨1700000001⟩
  obtain ⟨header, hheader, hminer⟩ := header?_eq_makeHeader true hwork rfl hblock
  exact ⟨work, notify, block, header, hwork, hblock, hheader, hminer⟩

end Miner

end MergedMining
