import MergedMining.Proofs.Daemon.Log
import MergedMining.Proofs.Pool.Steady
import MergedMining.Proofs.Work.Requirements

/-!
# Which blocks are recorded

A block is recorded after a daemon accepted it.  For the primary chain nothing can go wrong in between.  The
record of a merge-mined block is written only if its target and the digest of its coinbase can be read, and
these are first looked at when the daemon has accepted the block already (`submitCandidate_records`); one that
cannot be read is lost (`submitCandidate_loses_sample`).
-/

namespace MergedMining

open Daemons (Exchange Answered)
open Stratum (Nonce Ntime)

/-- The status that names the chains of which a block was recorded. -/
def ShareStatus.ofRecorded : Bool → Bool → ShareStatus
  | true, true => .dual
  | true, false => .aux
  | false, true => .primary
  | false, false => .valid

/-- A merge-mined block of which a record can be written. -/
def AuxBlock.Recordable (aux : AuxBlock) : Prop := aux.HasTarget ∧ ∃ count, Hex.IsDigits (2 * count) aux.coinbaseHash

namespace Pool

variable {σ : Type} {p : Pool σ} {block : Block} {status : ShareStatus} {session : Session}

/-! ### Records -/

theorem auxRecord_eq_ok {chain : Chain} {aux : AuxBlock} {found : FoundBlock} :
    p.auxRecord session status chain aux = .ok found ↔ ∃ target digest, aux.target = .ok target ∧
      Hex.bytes aux.coinbaseHash = .ok digest ∧ found = p.foundBlock session status chain aux.height
        (target.difficulty * chain.shareMultiplier) (Hex.encode digest.reverse) aux.hash := by
  simp only [auxRecord, AuxBlock.networkDifficulty, Outcome.bind_eq_ok, Hex.reversePairs_eq_ok]
  constructor
  · rintro ⟨difficulty, hdifficulty, _, ⟨digest, hdigest, rfl⟩, h⟩
    cases h
    rcases htarget : aux.target with e | target
    · rw [htarget] at hdifficulty
      cases hdifficulty
    · rw [htarget] at hdifficulty
      cases hdifficulty
      exact ⟨target, digest, rfl, hdigest, rfl⟩
  · rintro ⟨target, digest, htarget, hdigest, rfl⟩
    rw [htarget]
    exact ⟨_, rfl, _, ⟨digest, hdigest, rfl⟩, rfl⟩

theorem exists_auxRecord_iff {chain : Chain} {aux : AuxBlock} :
    (∃ found, p.auxRecord session status chain aux = .ok found) ↔ aux.Recordable := by
  rw [AuxBlock.Recordable, ← AuxBlock.exists_target_iff]
  simp only [auxRecord_eq_ok, ← Hex.exists_bytes_iff_isDigits]
  constructor
  · rintro ⟨_, target, digest, htarget, hdigest, -⟩
    exact ⟨⟨target, htarget⟩, _, digest, hdigest, rfl⟩
  · rintro ⟨⟨target, htarget⟩, _, digest, hdigest, -⟩
    exact ⟨_, target, digest, htarget, hdigest, rfl⟩

theorem primaryRecord_of_header {header : Bytes} (h : block.header = some header) :
    p.primaryRecord session status block = .ok (p.foundBlock session status p.primary.chain block.work.height
      (block.work.template.networkDifficulty p.primary.chain) (Hex.encode (sha256d block.coinbase))
      (Hex.encode (sha256d header).reverse)) := by
  have hcoinbase : block.coinbaseHash = .ok (Hex.encode (sha256d block.coinbase)) := by rw [Block.coinbaseHash, h]
  have hheader : block.headerHash = .ok (Hex.encode (sha256d header).reverse) := by rw [Block.headerHash, h]
  rw [primaryRecord, hcoinbase, hheader]
  rfl

/-! ### Submissions -/

private theorem askAux_primary {α : Type} (p : Pool σ) (request : ChainNode → Node → Asking α) :
    (p.askAux request).2.primary = p.primary := by
  unfold askAux
  rcases p.others with _ | ⟨node, rest⟩ <;> rfl

private theorem submitAux_primary (p : Pool σ) : (p.submitAux block status session).2.primary = p.primary := by
  unfold submitAux
  rcases p.others with _ | ⟨node, rest⟩
  · rfl
  rcases block.work.aux with _ | aux
  · rfl
  dsimp only
  rcases AuxPow.ofBlock block with e | proof
  · rfl
  · have hask := p.askAux_primary fun _ n => n.submitAuxBlock aux.hash proof.toText
    dsimp only
    rcases hanswer : p.askAux fun _ n => n.submitAuxBlock aux.hash proof.toText with ⟨_ | _ | _, q⟩
    all_goals
      rw [hanswer] at hask
      exact hask

variable [Store σ] {q : Pool σ} {node? : Option ChainNode} {method : String} {value : Json} {good : Prop}
  {new newer : List Exchange} {found : Option FoundBlock} {accepted solved : ShareStatus}

/-- What handing in a block to a chain, if there is one, comes to: the calls that were made, the record that was
written, if any, and the pool afterwards.  A record is written exactly if a call was answered with an acceptance
and the block is good for a record. -/
structure Settles (p : Pool σ) (node? : Option ChainNode) (method : String) (value : Json) (good : Prop)
    (new : List Exchange) (found : Option FoundBlock) (q : Pool σ) : Prop where
  after : p.daemons.After new q.daemons
  methods : ∀ x ∈ new, x.call.method = method ∨ x.call.method = "getconnectioncount"
  store : q.store = found.toList.foldl (fun store block => (Store.insertBlock store block).2) p.store
  isSome : found.isSome ↔ Answered new method value ∧ good
  chain : ∀ block ∈ found, ∃ node ∈ node?, block.chain = node.chain.name

private theorem settles_nothing (p : Pool σ) (node? : Option ChainNode) (method : String) (value : Json)
    (good : Prop) :
    p.Settles node? method value good [] none p := by
  refine ⟨.refl _, nofun, rfl, ?_, nofun⟩
  simp [Daemons.not_answered_nil]

/-- Answers to another method do not count. -/
theorem Settles.not_answered (h : p.Settles node? method value good new found q) (other : String)
    (hmethod : other ≠ method) (hlook : other ≠ "getconnectioncount") (v : Json) : ¬ Answered new other v := by
  rintro ⟨x, hx, hcall, -⟩
  rcases h.methods x hx with hx | hx
  · exact hmethod (hcall.symm.trans hx)
  · exact hlook (hcall.symm.trans hx)

/-- A submission to the nodes of a chain is settled by their answer, and by the record if there is one. -/
private theorem settles_of_call {c cluster : Cluster} {params : List Json} {accepts : Json → Bool}
    {answer : Except Fault Unit} {record : Except Failure FoundBlock} {r : Except Failure FoundBlock × Pool σ}
    (hr : r = ((answer.mapError .fault).bind fun _ => record, q))
    (hcall : c.call (fun node => node.submit method params accepts) p.daemons = (answer, cluster, q.daemons))
    (hmethod : method ≠ "getconnectioncount") (haccepts : ∀ v, accepts v = true ↔ v = value)
    (hstore : q.store = p.store) (hgood : (∃ block, record = .ok block) ↔ good)
    (hchain : ∀ block, record = .ok block → ∃ node ∈ node?, block.chain = node.chain.name)
    (accepted solved : ShareStatus) :
    ∃ new found, p.Settles node? method value good new found (settleSubmission accepted solved r).2 ∧
      (settleSubmission accepted solved r).1 = (if found.isSome then accepted.combine solved else accepted) ∧
      p.daemons.exchange ⟨c.activeNode, method, .arr params⟩ ∈ new := by
  obtain ⟨later, hafter, hlater, hok⟩ := Cluster.call_submit haccepts hmethod c p.daemons
  rw [hcall] at hafter hok
  have hfirst : p.daemons.exchange ⟨c.activeNode, method, .arr params⟩ ∈
      later ++ [p.daemons.exchange ⟨c.activeNode, method, .arr params⟩] :=
    List.mem_append_right _ List.mem_cons_self
  have hmethods : ∀ x ∈ later ++ [p.daemons.exchange ⟨c.activeNode, method, .arr params⟩],
      x.call.method = method ∨ x.call.method = "getconnectioncount" := by
    intro x hx
    rcases List.mem_append.1 hx with hx | hx
    · exact hlater x hx
    · rw [List.mem_singleton.1 hx]
      exact .inl rfl
  subst hr
  -- the record is looked at behind an acceptance only, and a fault in either leaves the store as it was
  rcases answer with e | ⟨⟩
  · refine ⟨_, none, ⟨hafter, hmethods, hstore, ?_, nofun⟩, rfl, hfirst⟩
    simp [← hok]
  · rcases record with e | block
    · refine ⟨_, none, ⟨hafter, hmethods, hstore, ?_, nofun⟩, rfl, hfirst⟩
      simp [← hgood]
    · refine ⟨_, some block, ⟨hafter, hmethods, ?_, ?_, ?_⟩, rfl, hfirst⟩
      · show (Store.insertBlock q.store block).2 = _
        rw [hstore]
        rfl
      · simp [← hok, ← hgood]
      · intro block' hblock
        cases hblock
        exact hchain _ rfl

/-- A block of the primary chain is handed in to the active node first, and is recorded if it was accepted. -/
private theorem submitPrimary_settles {header : Bytes} {text : String} (hheader : block.header = some header)
    (htext : block.submission = .ok text) (p : Pool σ) (accepted solved : ShareStatus) :
    ∃ new found, p.Settles (some p.primary) "submitblock" .null True new found
        (settleSubmission accepted solved (p.submitPrimary block status session)).2 ∧
      (settleSubmission accepted solved (p.submitPrimary block status session)).1 =
        (if found.isSome then accepted.combine solved else accepted) ∧
      p.daemons.exchange ⟨p.primary.cluster.activeNode, "submitblock", .arr [.str text]⟩ ∈ new := by
  rcases hcall : p.primary.cluster.call (fun node => node.submit "submitblock" [.str text] Node.acceptsBlock)
    p.daemons with ⟨answer, cluster, daemons⟩
  have hrecord := @primaryRecord_of_header σ { p with primary := { p.primary with cluster }, daemons } _ status
    session _ hheader
  have hsubmit : p.submitPrimary block status session = ((answer.mapError .fault).bind fun _ =>
      .ok (p.foundBlock session status p.primary.chain block.work.height
        (block.work.template.networkDifficulty p.primary.chain) (Hex.encode (sha256d block.coinbase))
        (Hex.encode (sha256d header).reverse)), { p with primary := { p.primary with cluster }, daemons }) := by
    simp only [submitPrimary, htext, askPrimary, Node.submitBlock, hcall]
    rcases answer with e | ⟨⟩
    · rfl
    · dsimp only
      rw [hrecord]
      rfl
  refine settles_of_call hsubmit hcall (by decide) Node.acceptsBlock_iff rfl ⟨fun _ => trivial, fun _ => ⟨_, rfl⟩⟩ ?_
    accepted solved
  intro found hfound
  cases hfound
  exact ⟨p.primary, rfl, rfl⟩

/-- The proof for a merge-mined block is handed in to the active node first, and the block is recorded if it was
accepted and a record of it can be written. -/
private theorem submitAux_settles {proof : AuxPow} (hproof : AuxPow.ofBlock block = .ok proof) (p : Pool σ)
    (accepted solved : ShareStatus) :
    ∃ new found, p.Settles p.others.head? "submitauxblock" (.bool true)
      (∀ aux ∈ block.work.aux, aux.Recordable) new found
        (settleSubmission accepted solved (p.submitAux block status session)).2 ∧
      (settleSubmission accepted solved (p.submitAux block status session)).1 =
        (if found.isSome then accepted.combine solved else accepted) ∧
      ∀ node ∈ p.others.head?, ∀ aux ∈ block.work.aux, p.daemons.exchange
        ⟨node.cluster.activeNode, "submitauxblock", .arr [.str aux.hash, .str proof.toText]⟩ ∈ new := by
  rcases hothers : p.others with _ | ⟨node, rest⟩
  · have hsubmit : p.submitAux block status session = (.error .noAuxChain, p) := by rw [submitAux, hothers]
    rw [hsubmit]
    exact ⟨_, _, settles_nothing .., rfl, nofun⟩
  rcases haux : block.work.aux with _ | aux
  · have hsubmit : p.submitAux block status session = (.error (.noAuxBlock block.work.jobId), p) := by
      simp only [submitAux, hothers, haux]
    rw [hsubmit]
    exact ⟨_, _, settles_nothing .., rfl, nofun⟩
  rcases hcall : node.cluster.call (fun n => n.submit "submitauxblock" [.str aux.hash, .str proof.toText]
    Node.acceptsAuxBlock) p.daemons with ⟨answer, cluster, daemons⟩
  have hsubmit : p.submitAux block status session = ((answer.mapError .fault).bind fun _ =>
      (p.auxRecord session status node.chain aux).mapError .ofEncoding,
      { p with others := { node with cluster } :: rest, daemons }) := by
    simp only [submitAux, hothers, haux, hproof, askAux, Node.submitAuxBlock, hcall]
    rcases answer with e | ⟨⟩ <;> rfl
  have hgood : (∃ found, (p.auxRecord session status node.chain aux).mapError Failure.ofEncoding = .ok found) ↔
      ∀ a ∈ some aux, a.Recordable := by
    simp [Outcome.mapError_eq_ok, exists_auxRecord_iff]
  have hchain : ∀ found, (p.auxRecord session status node.chain aux).mapError Failure.ofEncoding = .ok found →
      ∃ n ∈ some node, found.chain = n.chain.name := by
    intro found hfound
    obtain ⟨_, _, -, -, rfl⟩ := auxRecord_eq_ok.1 (Outcome.mapError_eq_ok.1 hfound)
    exact ⟨node, rfl, rfl⟩
  obtain ⟨new, found, hsettles, hstatus, hfirst⟩ :=
    settles_of_call hsubmit hcall (by decide) Node.acceptsAuxBlock_iff rfl hgood hchain accepted solved
  refine ⟨new, found, hsettles, hstatus, ?_⟩
  intro node' hnode aux' haux'
  cases hnode
  cases haux'
  exact hfirst

/-! ### Candidates -/

/-- A candidate that solves a merge-mined block is handed in to that chain, and any other goes on as it is. -/
private theorem exists_settles_aux {proof : AuxPow} (hproof : AuxPow.ofBlock block = .ok proof) (p : Pool σ)
    (status : ShareStatus) (session : Session) :
    ∃ q new found, (if status.solvesAux then settleSubmission .valid .aux (p.submitAux block status session)
        else (.valid, p)) = (.ofRecorded found.isSome false, q) ∧ q.primary = p.primary ∧
      p.Settles p.others.head? "submitauxblock" (.bool true) (∀ aux ∈ block.work.aux, aux.Recordable) new found q ∧
      (status.solvesAux = true → ∀ node ∈ p.others.head?, ∀ aux ∈ block.work.aux, p.daemons.exchange
        ⟨node.cluster.activeNode, "submitauxblock", .arr [.str aux.hash, .str proof.toText]⟩ ∈ new) := by
  by_cases hsolves : status.solvesAux = true
  · rw [if_pos hsolves]
    obtain ⟨new, found, hsettles, hstatus, hmem⟩ := submitAux_settles hproof p .valid .aux
    have hprimary : (settleSubmission .valid .aux (p.submitAux block status session)).2.primary = p.primary := by
      rw [← p.submitAux_primary]
      rcases p.submitAux block status session with ⟨_ | _, _⟩ <;> rfl
    have hnamed : (settleSubmission .valid .aux (p.submitAux block status session)).1 =
        .ofRecorded found.isSome false := by
      rw [hstatus]
      rcases found with _ | _ <;> rfl
    exact ⟨_, new, found, Prod.ext hnamed rfl, hprimary, hsettles, fun _ => hmem⟩
  · rw [if_neg hsolves]
    exact ⟨p, [], none, rfl, rfl, settles_nothing .., fun h => absurd h hsolves⟩

/-- A candidate is settled with the merge-mined chain first, and with the primary chain after it. -/
theorem submitCandidate_settles {header : Bytes} {text : String} {proof : AuxPow}
    (hheader : block.header = some header) (htext : block.submission = .ok text)
    (hproof : AuxPow.ofBlock block = .ok proof) (p : Pool σ) (status : ShareStatus) (session : Session) :
    ∃ q older newer aux primary,
      p.Settles p.others.head? "submitauxblock" (.bool true) (∀ a ∈ block.work.aux, a.Recordable) older aux q ∧
      q.Settles (some p.primary) "submitblock" .null True newer primary (p.submitCandidate block status session).2 ∧
      (p.submitCandidate block status session).1 = .ofRecorded aux.isSome primary.isSome ∧
      (status.solvesAux = true → ∀ node ∈ p.others.head?, ∀ a ∈ block.work.aux, p.daemons.exchange
        ⟨node.cluster.activeNode, "submitauxblock", .arr [.str a.hash, .str proof.toText]⟩ ∈ older) ∧
      (status.solvesPrimary = true → q.daemons.exchange
        ⟨p.primary.cluster.activeNode, "submitblock", .arr [.str text]⟩ ∈ newer) := by
  obtain ⟨q, older, aux, hfirst, hprimary, haux, hmem⟩ := exists_settles_aux hproof p status session
  unfold submitCandidate
  rw [hfirst]
  dsimp only
  by_cases hsolves : status.solvesPrimary = true
  · rw [if_pos hsolves]
    obtain ⟨newer, primary, hsettles, hstatus, hmem'⟩ :=
      submitPrimary_settles hheader htext q (.ofRecorded aux.isSome false) .primary
    rw [hprimary] at hsettles hmem'
    refine ⟨q, older, newer, aux, primary, haux, hsettles, ?_, hmem, fun _ => hmem'⟩
    rw [hstatus]
    rcases aux with _ | _ <;> rcases primary with _ | _ <;> rfl
  · rw [if_neg hsolves]
    exact ⟨q, older, [], aux, none, haux, settles_nothing .., rfl, hmem, fun h => absurd h hsolves⟩

/-- A block whose work is known can be handed in to both chains. -/
theorem parts_of_sum {made : Block} {sum : Target} (h : made.sum = .ok (sum, block)) :
    ∃ header text proof, block.header = some header ∧ block.submission = .ok text ∧
      AuxPow.ofBlock block = .ok proof := by
  obtain ⟨header, hheader, -, rfl⟩ := Block.sum_eq_ok.1 h
  have htext : ∃ text, Block.submission { made with hash := some (scrypt header).reverse } = .ok text := by
    rw [Block.submission, hheader]
    exact ⟨_, rfl⟩
  have hproof : ∃ proof, AuxPow.ofBlock { made with hash := some (scrypt header).reverse } = .ok proof := by
    rw [AuxPow.ofBlock, hheader]
    exact ⟨_, rfl⟩
  obtain ⟨text, htext⟩ := htext
  obtain ⟨proof, hproof⟩ := hproof
  exact ⟨header, text, proof, hheader, htext, hproof⟩

/-- Every accepted block of the primary chain is recorded once, and so is every accepted merge-mined block of
which a record can be written.  Nothing else is recorded, and the status names what was. -/
theorem submitCandidate_records {made : Block} {sum : Target} (hsum : made.sum = .ok (sum, block)) (p : Pool σ)
    (status : ShareStatus) (session : Session) :
    ∃ (new : List Exchange) (aux primary : Option FoundBlock),
      p.daemons.After new (p.submitCandidate block status session).2.daemons ∧
      (p.submitCandidate block status session).2.store =
        (aux.toList ++ primary.toList).foldl (fun store found => (Store.insertBlock store found).2) p.store ∧
      (aux.isSome ↔ Answered new "submitauxblock" (.bool true) ∧ ∀ a ∈ block.work.aux, a.Recordable) ∧
      (primary.isSome ↔ Answered new "submitblock" .null) ∧
      (∀ found ∈ aux, ∃ node ∈ p.others.head?, found.chain = node.chain.name) ∧
      (∀ found ∈ primary, found.chain = p.primary.chain.name) ∧
      (p.submitCandidate block status session).1 = .ofRecorded aux.isSome primary.isSome := by
  obtain ⟨header, text, proof, hheader, htext, hproof⟩ := parts_of_sum hsum
  obtain ⟨q, older, newer, aux, primary, haux, hprimary, hstatus, -, -⟩ :=
    submitCandidate_settles hheader htext hproof p status session
  refine ⟨newer ++ older, aux, primary, haux.after.trans hprimary.after, ?_, ?_, ?_, haux.chain, ?_, hstatus⟩
  · rw [hprimary.store, haux.store, List.foldl_append]
  -- an answer to one method says nothing about the other
  · have hnot := hprimary.not_answered "submitauxblock" (by decide) (by decide) (.bool true)
    simp only [haux.isSome, Daemons.answered_append, hnot, false_or]
  · have hnot := haux.not_answered "submitblock" (by decide) (by decide) .null
    simp only [hprimary.isSome, Daemons.answered_append, hnot, or_false, and_true]
  · intro found hfound
    obtain ⟨node, hnode, hchain⟩ := hprimary.chain found hfound
    cases hnode
    exact hchain

/-! ### A sample -/

end Pool

/-- The pool of the sample with a merge-mined chain, whose daemon accepts every block, as the primary one does. -/
def sampleMergedPool (aux : AuxBlock) : Pool Ledger :=
  { samplePool with
    others := [⟨.litecoin, .main, ⟨"litecoin", [⟨1, 0, "http://aux"⟩], 0, false, by decide⟩, "", [0x52]⟩]
    daemons := ⟨fun _ call =>
      if call.method = "getblocktemplate" then .ok sampleTemplate.toJson
      else if call.method = "createauxblock" then .ok aux.toJson
      else if call.method = "submitauxblock" then .ok (.bool true)
      else .ok .null, []⟩ }

namespace Pool

/-- Both daemons of the sample accept a block, and only its record is in question. -/
private theorem sampleMergedPool_accepts {made block : Block} {sum : Target} {aux : AuxBlock}
    (hsum : made.sum = .ok (sum, block)) (haux : block.work.aux = some aux) :
    ∃ (new : List Exchange) (found : Option FoundBlock) (primary : FoundBlock),
    (sampleMergedPool aux).daemons.After new
      ((sampleMergedPool aux).submitCandidate block .dual sampleSession).2.daemons ∧
    Answered new "submitauxblock" (.bool true) ∧ Answered new "submitblock" .null ∧
    (found.isSome ↔ aux.Recordable) ∧ primary.chain = "dogecoin" ∧
    ((sampleMergedPool aux).submitCandidate block .dual sampleSession).2.store =
      (found.toList ++ [primary]).foldl (fun store found => (Store.insertBlock store found).2) Ledger.empty ∧
    ((sampleMergedPool aux).submitCandidate block .dual sampleSession).1 = .ofRecorded found.isSome true := by
  obtain ⟨header, text, proof, hheader, htext, hproof⟩ := parts_of_sum hsum
  obtain ⟨q, older, newer, found, primary, hfirst, hsecond, hstatus, hmem, hmem'⟩ :=
    submitCandidate_settles hheader htext hproof (sampleMergedPool aux) .dual sampleSession
  have holder : Answered older "submitauxblock" (.bool true) := ⟨_, hmem rfl _ rfl aux haux, rfl, rfl⟩
  have hnewer : Answered newer "submitblock" .null := by
    refine ⟨_, hmem' rfl, rfl, ?_⟩
    rw [Daemons.exchange, hfirst.after.reply]
    rfl
  obtain ⟨block', rfl⟩ := Option.isSome_iff_exists.1 (hsecond.isSome.2 ⟨hnewer, trivial⟩)
  obtain ⟨node, hnode, hchain⟩ := hsecond.chain block' rfl
  cases hnode
  refine ⟨newer ++ older, found, block', hfirst.after.trans hsecond.after, Daemons.answered_append.2 (.inr holder),
    Daemons.answered_append.2 (.inl hnewer), ?_, hchain, ?_, hstatus⟩
  · rw [hfirst.isSome, haux]
    simp [holder]
  · rw [hsecond.store, hfirst.store, List.foldl_append]
    rfl

/-- Work on a job for a merge-mined block. -/
private theorem exists_sampleCandidate {aux : AuxBlock} (h : aux.hash = sampleAux.hash) :
    ∃ work notify made block sum,
      Work.build (some sampleTemplate) (some aux) .dogecoin [0x2f] [0x51] 8 ⟨7⟩ = .ok (work, notify) ∧
      (Block.ofWork work).makeHeader [1, 2, 3, 4, 5, 6, 7, 8] ⟨1⟩ ⟨1700000001⟩ = .ok made ∧
      made.sum = .ok (sum, block) ∧ block.work.aux = some aux := by
  obtain ⟨work, notify, hwork, htemplate, haux, -⟩ := exists_sampleAuxWork h ⟨7⟩
  obtain ⟨made, hmade⟩ := Block.exists_sampleBlock htemplate [1, 2, 3, 4, 5, 6, 7, 8] ⟨1⟩ ⟨1700000001⟩
  obtain ⟨header, hheader⟩ := Block.exists_header hmade
  have hsum := Block.sum_eq_ok.2 ⟨header, hheader, rfl, rfl⟩
  obtain ⟨_, _, -, -, rfl⟩ := Block.makeHeader_eq_ok.1 hmade
  exact ⟨work, notify, _, _, _, hwork, hmade, hsum, haux⟩

theorem submitCandidate_records_sample :
    ∃ work notify made block sum,
      Work.build (some sampleTemplate) (some sampleAux) .dogecoin [0x2f] [0x51] 8 ⟨7⟩ = .ok (work, notify) ∧
      (Block.ofWork work).makeHeader [1, 2, 3, 4, 5, 6, 7, 8] ⟨1⟩ ⟨1700000001⟩ = .ok made ∧
      made.sum = .ok (sum, block) ∧
      ((sampleMergedPool sampleAux).submitCandidate block .dual sampleSession).1 = .dual ∧
      ((sampleMergedPool sampleAux).submitCandidate block .dual sampleSession).2.store.blocks.map (·.chain) =
        ["litecoin", "dogecoin"] := by
  obtain ⟨work, notify, made, block, sum, hwork, hmade, hsum, haux⟩ := @exists_sampleCandidate sampleAux rfl
  obtain ⟨new, aux, primary, hafter, hstore, hauxSome, hprimarySome, hauxChain, hprimaryChain, hstatus⟩ :=
    submitCandidate_records hsum (sampleMergedPool sampleAux) .dual sampleSession
  obtain ⟨new', _, _, hafter', hauxAnswer, hprimaryAnswer, -⟩ := sampleMergedPool_accepts hsum haux
  cases hafter.unique hafter'
  have hrecordable : sampleAux.Recordable := ⟨sampleAux_hasTarget, 32, by decide⟩
  have hrecorded : ∀ a ∈ block.work.aux, a.Recordable := by
    intro a ha
    rw [haux] at ha
    cases ha
    exact hrecordable
  obtain ⟨foundAux, rfl⟩ := Option.isSome_iff_exists.1 (hauxSome.2 ⟨hauxAnswer, hrecorded⟩)
  obtain ⟨foundPrimary, rfl⟩ := Option.isSome_iff_exists.1 (hprimarySome.2 hprimaryAnswer)
  obtain ⟨node, hnode, hchain⟩ := hauxChain foundAux rfl
  cases hnode
  have hchains : [foundAux.chain, foundPrimary.chain] = ["litecoin", "dogecoin"] := by
    rw [hchain, hprimaryChain foundPrimary rfl]
    rfl
  refine ⟨work, notify, made, block, sum, hwork, hmade, hsum, hstatus, ?_⟩
  rw [hstore, ← hchains]
  rfl

/-- A merge-mined block that was accepted is lost when the digest of its coinbase is no byte string. -/
theorem submitCandidate_loses_sample : ∃ (aux : AuxBlock) (work : Work) (notify : Stratum.Notify) (made block : Block)
    (sum : Target) (new : List Exchange),
      aux.coinbaseHash = "zz" ∧
      Work.build (some sampleTemplate) (some aux) .dogecoin [0x2f] [0x51] 8 ⟨7⟩ = .ok (work, notify) ∧
      (Block.ofWork work).makeHeader [1, 2, 3, 4, 5, 6, 7, 8] ⟨1⟩ ⟨1700000001⟩ = .ok made ∧
      made.sum = .ok (sum, block) ∧
      (sampleMergedPool aux).daemons.After new
        ((sampleMergedPool aux).submitCandidate block .dual sampleSession).2.daemons ∧
      Answered new "submitauxblock" (.bool true) ∧
      ((sampleMergedPool aux).submitCandidate block .dual sampleSession).1 = .primary ∧
      ((sampleMergedPool aux).submitCandidate block .dual sampleSession).2.store.blocks.map (·.chain) =
        ["dogecoin"] := by
  obtain ⟨work, notify, made, block, sum, hwork, hmade, hsum, haux⟩ :=
    @exists_sampleCandidate { sampleAux with coinbaseHash := "zz" } rfl
  obtain ⟨new, found, primary, hafter, hanswered, -, hfound, hchain, hstore, hstatus⟩ :=
    sampleMergedPool_accepts hsum haux
  have hlost : ¬ AuxBlock.Recordable { sampleAux with coinbaseHash := "zz" } := by
    rintro ⟨-, count, hdigits, -⟩
    exact absurd hdigits (by decide)
  rw [← hfound, Bool.not_eq_true, Option.isSome_eq_false_iff, Option.isNone_iff_eq_none] at hlost
  subst hlost
  refine ⟨_, work, notify, made, block, sum, new, rfl, hwork, hmade, hsum, hafter, hanswered, hstatus, ?_⟩
  rw [hstore, ← hchain]
  rfl

end Pool

end MergedMining
