import MergedMining.Proofs.Pool.Candidate
import MergedMining.Proofs.Unlock.Passes

/-!
# The pool's own blocks

A pool records the digest of the coinbase that it handed in, and for a merge-mined block what the daemon had
said of its coinbase, if anything.  A look compares that with the first transaction of the block as a daemon
reports it.  The texts are turned round when a block is recorded, when it is looked at and when its transaction
is asked for, and all of that cancels: a block that its daemon reports as the pool recorded it is never taken
for somebody else's (`examine_of_recorded`).
-/

namespace MergedMining

open Daemons (Exchange Reported)

/-! ### Records of pools -/

/-- The record that a pool writes of a block, and the transaction that the block starts with: the one whose digest the
coinbase has, the one that the daemon named when it gave out a merge-mined block, or any if it named none. -/
inductive FoundBlock.Recorded (found : FoundBlock) (txid : String) : Prop
  | primary {σ : Type} {p q : Pool σ} {block : Block} {status : ShareStatus} {session : Session}
      (h : p.submitPrimary block status session = (.ok found, q))
      (htxid : txid.toLower = Hex.encode (sha256d block.coinbase).reverse)
  | aux {σ : Type} {p q : Pool σ} {block : Block} {status : ShareStatus} {session : Session} {aux : AuxBlock}
      (h : p.submitAux block status session = (.ok found, q)) (haux : block.work.aux = some aux)
      (hnamed : aux.coinbaseHash ≠ "") (htxid : txid.toLower = aux.coinbaseHash.toLower)
  | unnamed {σ : Type} {p q : Pool σ} {block : Block} {status : ShareStatus} {session : Session} {aux : AuxBlock}
      (h : p.submitAux block status session = (.ok found, q)) (haux : block.work.aux = some aux)
      (hnone : aux.coinbaseHash = "") {count : Nat} (htxid : Hex.IsDigits (2 * count) txid)

/-- Whether a pool wrote this record of a block that a daemon had accepted. -/
def FoundBlock.IsWritten (found : FoundBlock) : Prop :=
  ∃ (σ : Type) (p q : Pool σ) (block : Block) (status : ShareStatus) (session : Session),
    p.submitPrimary block status session = (.ok found, q) ∨ p.submitAux block status session = (.ok found, q)

namespace Pool

variable {σ : Type} {p q : Pool σ} {block : Block} {status : ShareStatus} {session : Session} {found : FoundBlock}

private theorem of_submitPrimary (h : p.submitPrimary block status session = (.ok found, q)) :
    ∃ r : Pool σ, r.primaryRecord session status block = .ok found := by
  rw [submitPrimary] at h
  rcases htext : block.submission with e | text
  · rw [htext] at h
    cases h
  rw [htext] at h
  dsimp only at h
  rcases hask : p.askPrimary fun node => node.submitBlock text with ⟨e | ⟨⟩, r⟩
  · rw [hask] at h
    cases h
  · rw [hask] at h
    exact ⟨r, Outcome.mapError_eq_ok.1 (Prod.mk.inj h).1⟩

private theorem of_submitAux (h : p.submitAux block status session = (.ok found, q)) :
    ∃ (r : Pool σ) (chain : Chain) (aux : AuxBlock), block.work.aux = some aux ∧
      r.auxRecord session status chain aux = .ok found := by
  rw [submitAux] at h
  rcases hothers : p.others with _ | ⟨node, rest⟩
  · rw [hothers] at h
    cases h
  rcases haux : block.work.aux with _ | aux
  · rw [hothers, haux] at h
    cases h
  rcases hproof : AuxPow.ofBlock block with e | proof
  · rw [hothers, haux, hproof] at h
    cases h
  rw [hothers, haux, hproof] at h
  dsimp only at h
  rcases hask : p.askAux fun _ node => node.submitAuxBlock aux.hash proof.toText with ⟨_ | e | ⟨⟩, r⟩
  · rw [hask] at h
    cases h
  · rw [hask] at h
    cases h
  · rw [hask] at h
    exact ⟨r, node.chain, aux, rfl, Outcome.mapError_eq_ok.1 (Prod.mk.inj h).1⟩

/-- The record of a block of the primary chain. -/
private theorem submitPrimary_foundBlock (h : p.submitPrimary block status session = (.ok found, q)) :
    ∃ (r : Pool σ) (chain : Chain) (height : UInt64) (difficulty : Float) (hash : String),
      found = r.foundBlock session status chain height difficulty (Hex.encode (sha256d block.coinbase)) hash := by
  obtain ⟨r, hrecord⟩ := of_submitPrimary h
  rcases hheader : block.header with _ | header
  · rw [primaryRecord, Block.coinbaseHash, hheader] at hrecord
    cases hrecord
  · rw [primaryRecord_of_header hheader] at hrecord
    cases hrecord
    exact ⟨r, _, _, _, _, rfl⟩

/-- The record of a merge-mined block. -/
private theorem submitAux_foundBlock (h : p.submitAux block status session = (.ok found, q)) :
    ∃ (r : Pool σ) (chain : Chain) (aux : AuxBlock) (difficulty : Float) (digest : Bytes),
      block.work.aux = some aux ∧ Hex.bytes aux.coinbaseHash = .ok digest ∧
      found = r.foundBlock session status chain aux.height difficulty (Hex.encode digest.reverse) aux.hash := by
  obtain ⟨r, chain, aux, haux, hrecord⟩ := of_submitAux h
  obtain ⟨_, digest, -, hdigest, hfound⟩ := auxRecord_eq_ok.1 hrecord
  exact ⟨r, chain, aux, _, digest, haux, hdigest, hfound⟩

end Pool

theorem FoundBlock.IsWritten.fresh {found : FoundBlock} (h : found.IsWritten) :
    found.status = .pending ∧ found.progress = 0 := by
  obtain ⟨_, p, q, block, status, session, hsubmit | hsubmit⟩ := h
  · obtain ⟨_, _, _, _, _, rfl⟩ := Pool.submitPrimary_foundBlock hsubmit
    exact ⟨rfl, rfl⟩
  · obtain ⟨_, _, _, _, _, -, -, rfl⟩ := Pool.submitAux_foundBlock hsubmit
    exact ⟨rfl, rfl⟩

/-- What is recorded of the coinbase, if anything, is the transaction turned round. -/
theorem FoundBlock.Recorded.confirmation {found : FoundBlock} {txid : String} (h : found.Recorded txid) :
    ∃ confirmation, Hex.reversePairs txid = .ok confirmation ∧
      (found.confirmation = "" ∨ found.confirmation = confirmation) := by
  cases h with
  | primary h htxid =>
    have hbytes := Hex.bytes_of_toLower (htxid ▸ Hex.bytes_encode _)
    refine ⟨_, Hex.reversePairs_eq_ok.2 ⟨_, hbytes, rfl⟩, .inr ?_⟩
    obtain ⟨_, _, _, _, _, rfl⟩ := Pool.submitPrimary_foundBlock h
    rw [List.reverse_reverse]
    rfl
  | aux h haux _ htxid =>
    obtain ⟨_, _, _, _, digest, haux', hdigest, rfl⟩ := Pool.submitAux_foundBlock h
    cases haux.symm.trans haux'
    rw [← Hex.encode_of_bytes hdigest] at htxid
    have hbytes := Hex.bytes_of_toLower (htxid ▸ Hex.bytes_encode _)
    exact ⟨_, Hex.reversePairs_eq_ok.2 ⟨_, hbytes, rfl⟩, .inr rfl⟩
  | unnamed h haux hnone htxid =>
    obtain ⟨_, _, _, _, digest, haux', hdigest, rfl⟩ := Pool.submitAux_foundBlock h
    cases haux.symm.trans haux'
    obtain ⟨bs, hbs, -⟩ := Hex.exists_bytes_iff_isDigits.2 htxid
    refine ⟨_, Hex.reversePairs_eq_ok.2 ⟨bs, hbs, rfl⟩, .inl ?_⟩
    rw [hnone] at hdigest
    cases hdigest
    rfl

/-! ### Looks at them -/

private theorem reversePairs_congr {s t c : String} (h : s.toLower = t.toLower) (ht : Hex.reversePairs t = .ok c) :
    Hex.reversePairs s = .ok c := by
  obtain ⟨bs, hbs, rfl⟩ := Hex.reversePairs_eq_ok.1 ht
  rw [← Hex.encode_of_bytes hbs] at h
  exact Hex.reversePairs_eq_ok.2 ⟨bs, Hex.bytes_of_toLower (h ▸ Hex.bytes_encode bs), rfl⟩

namespace Unlocker

variable {σ : Type} [Store σ]

/-- However often its record was amended, a block that is always reported with the transaction it starts with is
never taken for somebody else's: every look at it goes on to the wallet, and asks for that transaction in
lowercase and for no other. -/
theorem examine_of_recorded (T : Store.Table σ) {u : Unlocker σ} (hu : T.IsSound u.store) {found : FoundBlock}
    {txid : String} (hfound : found.Recorded txid) {id : Int}
    (hstored : T.record? u.store id = some { found with id }) (es : List Event) :
    ∃ new confirmation, u.daemons.After new (u.run es).daemons ∧ Hex.reversePairs txid = .ok confirmation ∧
      ((∀ other, Reported new found.hash other → other.toLower = txid.toLower) →
        ∃ b, T.record? (u.run es).store id = some b ∧
          ∀ (v w : Unlocker σ) index chain cluster remote first rest,
            v.cluster? b.chain = some (index, chain, cluster) →
            (v.ask index fun node => node.getBlock b.hash) = (.ok remote, w) → remote.txids = first :: rest →
            first.toLower = txid.toLower →
              (v.examine b = match w.ask index fun node => node.getTransaction txid.toLower with
                | (.error e, w) => (.error e, w)
                | (.ok t, w) => (.ok (settle b { b with confirmation } (.ofTransaction t chain.maturity)), w)) ∧
              ∃ asked, v.daemons.After asked (v.examine b).2.daemons ∧
                (∃ x ∈ asked, x.call.method = "gettransaction") ∧
                ∀ x ∈ asked, x.call.method = "gettransaction" → x.call.params = .arr [.str txid.toLower]) := by
  obtain ⟨confirmation, hconfirmation, hrecorded⟩ := hfound.confirmation
  obtain ⟨new, hrun⟩ := run_proceeds hu es
  refine ⟨new, confirmation, hrun.daemons, hconfirmation, fun hreports => ?_⟩
  obtain ⟨b, hb, hamended⟩ := hrun.records id _ hstored
  -- whatever filled in the coinbase was the same transaction
  have hkept : b.confirmation = "" ∨ b.confirmation = confirmation := by
    rcases hamended.confirmation with hsame | ⟨-, other, hreported, hother⟩
    · rw [hsame]
      exact hrecorded
    · right
      rw [reversePairs_congr (hreports other hreported) hconfirmation] at hother
      exact (Except.ok.inj hother).symm
  refine ⟨b, hb, fun v w index chain cluster remote first rest hcluster hblock htxids hfirst => ?_⟩
  have hturned := reversePairs_congr hfirst hconfirmation
  obtain ⟨asked, hasked, hsome, honly, -⟩ := examine_own_asks hcluster hblock htxids hturned hkept
  have hlook := examine_of_own hcluster hblock htxids hturned hkept
  rw [hfirst] at honly hlook
  exact ⟨hlook, asked, hasked.daemons, hsome, honly⟩

end Unlocker

/-! ### A sample -/

/-- A merge-mined block whose daemon named its coinbase in capitals. -/
def sampleNamed : AuxBlock := { sampleAux with coinbaseHash := "00FF" }

/-- A block with work for it. -/
def sampleNamedBlock : Block :=
  ⟨⟨⟨7⟩, .dogecoin, sampleTemplate, some sampleNamed, "", ⟨[], []⟩, []⟩, [], some [], some []⟩

/-- What the pool of the sample records of it. -/
def sampleRecorded : FoundBlock :=
  (sampleMergedPool sampleNamed).foundBlock sampleSession .aux .litecoin sampleNamed.height
    (Target.max.difficulty * Chain.litecoin.shareMultiplier) "ff00" sampleNamed.hash

theorem submitAux_sampleNamed : ∃ q,
    (sampleMergedPool sampleNamed).submitAux sampleNamedBlock .aux sampleSession = (.ok sampleRecorded, q) :=
  ⟨_, rfl⟩

namespace Unlocker

/-- A daemon that reports blocks with some transaction, and rewards as immature. -/
def immatureReply (first : List Call → String) (confirmations : Int) (earlier : List Call) (call : Call) :
    Except CallFault Json :=
  if call.method = "getblock" then .ok (BlockInfo.toJson ⟨"", 1, 0, [first earlier]⟩)
  else if call.method = "gettransaction" then
    .ok (.obj [("confirmations", .int confirmations), ("details", .arr [.obj [("category", .str "immature")]])])
  else .ok (.int 8)

/-- An unlocker with the recorded block, whose coinbase is reported in mixed letters. -/
def sampleMixed : Unlocker Ledger := scripted (immatureReply (fun _ => "00Ff") 51) [{ sampleRecorded with id := 1 }]

theorem examine_of_recorded_sample : Ledger.table.IsSound sampleMixed.store ∧ sampleRecorded.Recorded "00Ff" ∧
    ∃ b, Ledger.table.record? sampleMixed.store 1 = some b ∧
      ∃ asked, sampleMixed.daemons.After asked (sampleMixed.examine b).2.daemons ∧
        (∃ x ∈ asked, x.call.method = "gettransaction") ∧
        ∀ x ∈ asked, x.call.method = "gettransaction" → x.call.params = .arr [.str "00ff"] := by
  have hsound : Ledger.table.IsSound sampleMixed.store := ⟨by decide, by decide⟩
  obtain ⟨q, hsubmit⟩ := submitAux_sampleNamed
  have hlower : "00Ff".toLower = "00ff" := (@Hex.encode_of_bytes "00Ff" [0x00, 0xff] rfl).symm
  have hlower' : "00FF".toLower = "00ff" := (@Hex.encode_of_bytes "00FF" [0x00, 0xff] rfl).symm
  have hrecorded : sampleRecorded.Recorded "00Ff" := .aux hsubmit rfl (by decide) (hlower.trans hlower'.symm)
  have hstored : Ledger.table.record? sampleMixed.store 1 = some { sampleRecorded with id := 1 } := rfl
  obtain ⟨new, _, hnew, -, hlooks⟩ := examine_of_recorded Ledger.table hsound hrecorded hstored []
  cases (Daemons.After.refl sampleMixed.daemons).unique hnew
  obtain ⟨b, hb, hlook⟩ := hlooks fun _ ⟨x, hx, _⟩ => absurd hx List.not_mem_nil
  cases hb
  rw [hlower] at hlook
  obtain ⟨-, hasked⟩ := hlook sampleMixed _ 0 .litecoin _ _ "00Ff" [] rfl rfl rfl hlower
  exact ⟨hsound, hrecorded, _, rfl, hasked⟩

end Unlocker

end MergedMining
