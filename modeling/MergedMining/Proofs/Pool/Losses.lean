import MergedMining.Proofs.Pool.Candidate

/-!
# Answers that are lost

A daemon may accept a block while its answer never arrives.  The caller sees a failed call and hands the block
in once more, and a daemon that has the block already refuses it.  So an accepted block is recorded exactly if
the answer to some acceptance arrived (`submitCandidate_records_iff`), and a lost answer hides an acceptance for
good when the node is still healthy (`call_of_lost`, `submitCandidate_hides`).
-/

namespace MergedMining

open Daemons (Exchange Answered exchanges)

/-! ### Calls and exchanges -/

namespace Daemons

variable {reply : List Call → Call → Except CallFault Json} {calls older : List Call} {new : List Exchange}
  {x : Exchange}

/-- A call was made after some older ones and after whatever came between. -/
structure Made (older calls earlier : List Call) (call : Call) : Prop where
  later : older <:+ earlier
  made : call :: earlier <:+ calls

private theorem map_call_exchanges (reply : List Call → Call → Except CallFault Json) (calls : List Call) :
    (exchanges reply calls).map Exchange.call = calls := by
  induction calls with
  | nil => rfl
  | cons call earlier ih => rw [exchanges, List.map_cons, ih]

private theorem not_made_self {earlier : List Call} {call : Call} : ¬ Made calls calls earlier call := by
  rintro ⟨hlater, hmade⟩
  have hlen := hlater.length_le
  have hlen' := hmade.length_le
  simp only [List.length_cons] at hlen'
  omega

/-- The exchanges of the calls that were made after the older ones. -/
theorem mem_new_iff (h : exchanges reply calls = new ++ exchanges reply older) :
    x ∈ new ↔ ∃ earlier call, Made older calls earlier call ∧ x = ⟨call, reply earlier call⟩ := by
  induction new generalizing calls with
  | nil =>
    have hcalls : calls = older := by
      rw [← map_call_exchanges reply calls, h, List.nil_append, map_call_exchanges]
    rw [hcalls]
    simp [not_made_self]
  | cons y new ih =>
    rcases calls with _ | ⟨call, earlier⟩
    · cases h
    rw [exchanges, List.cons_append] at h
    obtain ⟨rfl, hrest⟩ := List.cons.inj h
    have holder : older <:+ earlier := by
      rw [← map_call_exchanges reply earlier, hrest, List.map_append, map_call_exchanges]
      exact List.suffix_append _ _
    rw [List.mem_cons, ih hrest]
    constructor
    · rintro (rfl | ⟨earlier', call', hmade, rfl⟩)
      · exact ⟨earlier, call, ⟨holder, List.suffix_rfl⟩, rfl⟩
      · exact ⟨earlier', call', ⟨hmade.later, hmade.made.trans (List.suffix_cons _ _)⟩, rfl⟩
    · rintro ⟨earlier', call', ⟨hlater, hmade⟩, rfl⟩
      rcases List.suffix_cons_iff.1 hmade with hsame | hbefore
      · cases hsame
        exact .inl rfl
      · exact .inr ⟨earlier', call', ⟨hlater, hbefore⟩, rfl⟩

end Daemons

/-! ### Daemons behind a line that loses answers -/

/-- What daemons make of a call after those before it, and what the caller sees in the place of an answer that
is lost. -/
structure Wire where
  verdict : List Call → Call → Json
  loss : List Call → Call → Option CallFault

namespace Wire

variable {w : Wire} {d d' : Daemons} {older calls : List Call} {text : String}

/-- What arrives in answer to a call. -/
def reply (w : Wire) (earlier : List Call) (call : Call) : Except CallFault Json :=
  match w.loss earlier call with
  | some e => .error e
  | none => .ok (w.verdict earlier call)

/-- Some daemon accepted a block, whether or not its answer arrived. -/
def Accepts (w : Wire) (older calls : List Call) : Prop :=
  ∃ earlier call, Daemons.Made older calls earlier call ∧ call.method = "submitblock" ∧ w.verdict earlier call = .null

/-- Some daemon accepted a block, and its answer arrived. -/
def Confirms (w : Wire) (older calls : List Call) : Prop :=
  ∃ earlier call, Daemons.Made older calls earlier call ∧ call.method = "submitblock" ∧
    w.verdict earlier call = .null ∧ w.loss earlier call = none

/-- A daemon that accepted a block refuses it when it is handed in again. -/
def RefusesRepeats (w : Wire) : Prop :=
  ∀ earlier before call, call :: before <:+ earlier → call.method = "submitblock" → w.verdict before call = .null →
    w.verdict earlier call ≠ .null

/-- All daemons answer sensibly when they are looked after. -/
def IsHealthy (w : Wire) : Prop :=
  ∀ earlier call, call.method = "getconnectioncount" → ∃ count, Json.toUInt64? (w.verdict earlier call) = some count

theorem Confirms.accepts (h : w.Confirms older calls) : w.Accepts older calls := by
  obtain ⟨earlier, call, hmade, hmethod, hverdict, -⟩ := h
  exact ⟨earlier, call, hmade, hmethod, hverdict⟩

theorem reply_eq_ok {earlier : List Call} {call : Call} {v : Json} :
    w.reply earlier call = .ok v ↔ w.loss earlier call = none ∧ w.verdict earlier call = v := by
  unfold reply
  rcases w.loss earlier call with _ | e
  · simp
  · simp

/-- An acceptance is what a caller is told exactly if its answer arrives. -/
theorem answered_iff_confirms {new : List Exchange} (hreply : d.reply = w.reply) (h : d.After new d') :
    Answered new "submitblock" .null ↔ w.Confirms d.calls d'.calls := by
  have hlog : exchanges w.reply d'.calls = new ++ exchanges w.reply d.calls := by
    have hlog := h.log
    rw [Daemons.log, Daemons.log, h.reply, hreply] at hlog
    exact hlog
  constructor
  · rintro ⟨x, hx, hmethod, hanswer⟩
    obtain ⟨earlier, call, hmade, rfl⟩ := (Daemons.mem_new_iff hlog).1 hx
    obtain ⟨hloss, hverdict⟩ := reply_eq_ok.1 hanswer
    exact ⟨earlier, call, hmade, hmethod, hverdict, hloss⟩
  · rintro ⟨earlier, call, hmade, hmethod, hverdict, hloss⟩
    exact ⟨_, (Daemons.mem_new_iff hlog).2 ⟨earlier, call, hmade, rfl⟩, hmethod, reply_eq_ok.2 ⟨hloss, hverdict⟩⟩

end Wire

/-! ### Acceptances that are hidden -/

namespace Node

private theorem run_submitBlock_of_refused {node : Node} {text : String} {d : Daemons} {call : Call}
    (hcall : call = ⟨node, "submitblock", .arr [.str text]⟩) (h : d.reply d.calls call ≠ .ok .null) :
    ∃ e, (node.submitBlock text).run d = (.error e, (d.ask call).2) := by
  subst hcall
  unfold submitBlock submit
  rw [run_call_bind]
  rcases hreply : d.reply d.calls ⟨node, "submitblock", .arr [.str text]⟩ with e | v
  · exact ⟨_, rfl⟩
  · cases v with
    | null => exact absurd hreply h
    | _ => exact ⟨_, rfl⟩

private theorem isHealthy_of_reply {node : Node} {d : Daemons} {call : Call} {v : Json} {count : UInt64}
    (hcall : call = ⟨node, "getconnectioncount", .arr []⟩) (hreply : d.reply d.calls call = .ok v)
    (hcount : v.toUInt64? = some count) : node.isHealthy d = (true, (d.ask call).2) := by
  subst hcall
  unfold isHealthy getConnectionCount
  rw [read, run_call_bind, hreply]
  dsimp only
  rw [hcount]
  rfl

end Node

/-- When the answer to an acceptance is lost and the node is found healthy, the same node gets the block once
more, refuses it, and the acceptance stays unknown. -/
theorem Wire.call_of_lost {w : Wire} {d : Daemons} {text : String} (hrepeats : w.RefusesRepeats)
    (hhealthy : w.IsHealthy) (hreply : d.reply = w.reply) (c : Cluster) {first look : Call}
    (hfirst : first = ⟨c.activeNode, "submitblock", .arr [.str text]⟩)
    (hlook : look = ⟨c.activeNode, "getconnectioncount", .arr []⟩) (haccepted : w.verdict d.calls first = .null)
    (hlost : w.loss d.calls first ≠ none) (hseen : w.loss (first :: d.calls) look = none) :
    ∃ e, c.call (fun node => node.submitBlock text) d =
      (.error e, c, { d with calls := first :: look :: first :: d.calls }) := by
  have hunknown : d.reply d.calls first ≠ .ok .null := by
    rw [hreply]
    intro h
    exact hlost (reply_eq_ok.1 h).1
  obtain ⟨e, hrun⟩ := Node.run_submitBlock_of_refused hfirst hunknown
  obtain ⟨count, hcount⟩ := hhealthy (first :: d.calls) look (by rw [hlook])
  have hanswer : (d.ask first).2.reply (d.ask first).2.calls look = .ok (w.verdict (first :: d.calls) look) := by
    show d.reply (first :: d.calls) look = _
    rw [hreply]
    exact reply_eq_ok.2 ⟨hseen, rfl⟩
  have hcheck : c.check (d.ask first).2 = (.ok (), c, ((d.ask first).2.ask look).2) := by
    rw [Cluster.check, Node.isHealthy_of_reply hlook hanswer hcount]
  -- the node knows the block by now
  have hrepeat : ((d.ask first).2.ask look).2.reply ((d.ask first).2.ask look).2.calls first ≠ .ok .null := by
    show d.reply (look :: first :: d.calls) first ≠ _
    rw [hreply]
    intro h
    have hmade : first :: d.calls <:+ look :: first :: d.calls := List.suffix_cons _ _
    exact hrepeats _ _ first hmade (by rw [hfirst]) haccepted (reply_eq_ok.1 h).2
  obtain ⟨e', hrun'⟩ := Node.run_submitBlock_of_refused hfirst hrepeat
  refine ⟨e', ?_⟩
  simp only [Cluster.call, hrun, hcheck, hrun']
  rfl

namespace Pool

variable {σ : Type} [Store σ] {p : Pool σ} {w : Wire} {made block : Block} {sum : Target} {session : Session}
  {text : String}

theorem submitCandidate_daemons (htext : block.submission = .ok text) (p : Pool σ) (session : Session) :
    (p.submitCandidate block .primary session).2.daemons =
      (p.primary.cluster.call (fun node => node.submitBlock text) p.daemons).2.2 := by
  have hcandidate : p.submitCandidate block .primary session =
      settleSubmission .valid .primary (p.submitPrimary block .primary session) := rfl
  rw [hcandidate]
  simp only [submitPrimary, htext, askPrimary]
  rcases p.primary.cluster.call (fun node => node.submitBlock text) p.daemons with ⟨e | ⟨⟩, c, d⟩
  · rfl
  · dsimp only
    generalize primaryRecord _ session .primary block = record
    rcases record with e | found <;> rfl

/-- A block of the primary chain that cannot be handed in leaves the store as it was. -/
theorem submitCandidate_of_error (htext : block.submission = .ok text) {e : Fault} {c : Cluster} {d : Daemons}
    (h : p.primary.cluster.call (fun node => node.submitBlock text) p.daemons = (.error e, c, d))
    (session : Session) :
    (p.submitCandidate block .primary session).1 = .valid ∧
      (p.submitCandidate block .primary session).2.store = p.store := by
  have hsubmit : p.submitPrimary block .primary session =
      (.error (.fault e), { p with primary := { p.primary with cluster := c }, daemons := d }) := by
    simp only [submitPrimary, htext, askPrimary, h]
  have hcandidate : p.submitCandidate block .primary session =
      settleSubmission .valid .primary (p.submitPrimary block .primary session) := rfl
  rw [hcandidate, hsubmit]
  exact ⟨rfl, rfl⟩

/-- An accepted block of which the answer is lost is never recorded when its node is found healthy. -/
theorem submitCandidate_hides (hrepeats : w.RefusesRepeats) (hhealthy : w.IsHealthy)
    (hreply : p.daemons.reply = w.reply) (htext : block.submission = .ok text) {first look : Call}
    (hfirst : first = ⟨p.primary.cluster.activeNode, "submitblock", .arr [.str text]⟩)
    (hlook : look = ⟨p.primary.cluster.activeNode, "getconnectioncount", .arr []⟩)
    (haccepted : w.verdict p.daemons.calls first = .null) (hlost : w.loss p.daemons.calls first ≠ none)
    (hseen : w.loss (first :: p.daemons.calls) look = none) (session : Session) :
    w.Accepts p.daemons.calls (p.submitCandidate block .primary session).2.daemons.calls ∧
      (p.submitCandidate block .primary session).2.store = p.store ∧
      (p.submitCandidate block .primary session).1 = .valid := by
  obtain ⟨e, hcall⟩ := Wire.call_of_lost hrepeats hhealthy hreply p.primary.cluster hfirst hlook haccepted hlost hseen
  obtain ⟨hstatus, hstore⟩ := submitCandidate_of_error htext hcall session
  refine ⟨⟨p.daemons.calls, first, ⟨List.suffix_rfl, ?_⟩, by rw [hfirst], haccepted⟩, hstore, hstatus⟩
  rw [submitCandidate_daemons htext, hcall]
  exact List.suffix_append [first, look] _

/-- Whatever answers are lost, a block of the primary chain is recorded exactly if a daemon accepted it and its answer
arrived: an acceptance is hidden exactly if the answers to all acceptances are lost. -/
theorem submitCandidate_records_iff (hsum : made.sum = .ok (sum, block)) (hreply : p.daemons.reply = w.reply)
    (status : ShareStatus) (session : Session) :
    ∃ aux primary : Option FoundBlock,
      (p.submitCandidate block status session).2.store =
        (aux.toList ++ primary.toList).foldl (fun store found => (Store.insertBlock store found).2) p.store ∧
      (∀ found ∈ aux, ∃ node ∈ p.others.head?, found.chain = node.chain.name) ∧
      (∀ found ∈ primary, found.chain = p.primary.chain.name) ∧
      (primary.isSome ↔ w.Confirms p.daemons.calls (p.submitCandidate block status session).2.daemons.calls) := by
  obtain ⟨header, text, proof, hheader, htext, hproof⟩ := parts_of_sum hsum
  obtain ⟨q, older, newer, aux, primary, haux, hprimary, -, -, -⟩ :=
    submitCandidate_settles hheader htext hproof p status session
  refine ⟨aux, primary, ?_, haux.chain, ?_, ?_⟩
  · rw [hprimary.store, haux.store, List.foldl_append]
  · intro found hfound
    obtain ⟨node, hnode, hchain⟩ := hprimary.chain found hfound
    cases hnode
    exact hchain
  · have hnot := haux.not_answered "submitblock" (by decide) (by decide) .null
    rw [← Wire.answered_iff_confirms hreply (haux.after.trans hprimary.after), Daemons.answered_append,
      hprimary.isSome]
    simp only [hnot, or_false, and_true]

end Pool

/-! ### A sample -/

/-- One daemon, which accepts the first block that is handed in to it and refuses every later one.  What becomes
of the answer to the first one is left open. -/
def sampleWire (fate : Option CallFault) : Wire where
  verdict earlier call :=
    if call.method = "getconnectioncount" then .int 8
    else if earlier.any fun other => other.method = "submitblock" then .str "duplicate"
    else .null
  loss earlier call :=
    if call.method = "submitblock" ∧ earlier.all (fun other => other.method ≠ "submitblock") then fate else none

theorem sampleWire_refusesRepeats (fate : Option CallFault) : (sampleWire fate).RefusesRepeats := by
  intro earlier before call hbefore hmethod _
  have hmem : call ∈ earlier := hbefore.subset List.mem_cons_self
  have hany : (earlier.any fun other => other.method = "submitblock") = true :=
    List.any_eq_true.2 ⟨call, hmem, by simpa using hmethod⟩
  have hother : ¬ call.method = "getconnectioncount" := by
    rw [hmethod]
    decide
  simp only [sampleWire, hother, hany, if_false, if_true]
  nofun

theorem sampleWire_isHealthy (fate : Option CallFault) : (sampleWire fate).IsHealthy := by
  intro earlier call hmethod
  refine ⟨8, ?_⟩
  simp only [sampleWire, hmethod, if_true]
  rfl

namespace Pool

/-- The pool of the sample behind that daemon. -/
private def samplePoolBehind (fate : Option CallFault) : Pool Ledger :=
  { samplePool with daemons := ⟨(sampleWire fate).reply, []⟩ }

private theorem exists_sampleFind : ∃ work notify made block sum,
    Work.build (some sampleTemplate) none .dogecoin [0x2f] [0x51] 8 ⟨7⟩ = .ok (work, notify) ∧
      (Block.ofWork work).makeHeader [1, 2, 3, 4, 5, 6, 7, 8] ⟨1⟩ ⟨1700000001⟩ = .ok made ∧
      made.sum = .ok (sum, block) := by
  obtain ⟨work, notify, hwork⟩ := exists_sampleWork
  obtain ⟨made, hmade⟩ := Block.exists_sampleBlock (Work.template_eq (Work.build_eq_ok.1 hwork))
    [1, 2, 3, 4, 5, 6, 7, 8] ⟨1⟩ ⟨1700000001⟩
  obtain ⟨header, hheader⟩ := Block.exists_header hmade
  exact ⟨work, notify, made, _, _, hwork, hmade, Block.sum_eq_ok.2 ⟨header, hheader, rfl, rfl⟩⟩

/-- The answer to the only acceptance arrives, and the block is recorded. -/
theorem submitCandidate_records_iff_sample :
    ∃ (work : Work) (notify : Stratum.Notify) (made block : Block) (sum : Target),
    Work.build (some sampleTemplate) none .dogecoin [0x2f] [0x51] 8 ⟨7⟩ = .ok (work, notify) ∧
    (Block.ofWork work).makeHeader [1, 2, 3, 4, 5, 6, 7, 8] ⟨1⟩ ⟨1700000001⟩ = .ok made ∧
    made.sum = .ok (sum, block) ∧ (samplePoolBehind none).daemons.reply = (sampleWire none).reply ∧
    ((samplePoolBehind none).submitCandidate block .primary sampleSession).2.store.blocks.map (·.chain) =
      ["dogecoin"] := by
  obtain ⟨work, notify, made, block, sum, hwork, hmade, hsum⟩ := exists_sampleFind
  obtain ⟨_, text, _, -, htext, -⟩ := parts_of_sum hsum
  obtain ⟨aux, primary, hstore, haux, hprimary, hiff⟩ :=
    submitCandidate_records_iff (p := samplePoolBehind none) (w := sampleWire none) hsum rfl .primary sampleSession
  have hcall : (samplePoolBehind none).primary.cluster.call (fun node => node.submitBlock text)
      (samplePoolBehind none).daemons = _ := Cluster.call_of_first rfl
  have hconfirms : (sampleWire none).Confirms [] [⟨⟨0, 0, "http://node"⟩, "submitblock", .arr [.str text]⟩] :=
    ⟨[], _, ⟨List.suffix_rfl, List.suffix_rfl⟩, rfl, rfl, rfl⟩
  rw [submitCandidate_daemons htext, hcall] at hiff
  obtain ⟨found, rfl⟩ := Option.isSome_iff_exists.1 (hiff.2 hconfirms)
  have hnone : aux = none := by
    rcases aux with _ | other
    · rfl
    · obtain ⟨node, hnode, -⟩ := haux other rfl
      cases hnode
  subst hnone
  refine ⟨work, notify, made, block, sum, hwork, hmade, hsum, rfl, ?_⟩
  rw [hstore]
  show [found.chain] = _
  rw [hprimary found rfl]
  rfl

/-- A block is accepted, the answer is lost, and nothing is recorded. -/
theorem not_records_of_accepts : ∃ (work : Work) (notify : Stratum.Notify) (made block : Block) (sum : Target)
    (w : Wire) (p : Pool Ledger),
    Work.build (some sampleTemplate) none .dogecoin [0x2f] [0x51] 8 ⟨7⟩ = .ok (work, notify) ∧
    (Block.ofWork work).makeHeader [1, 2, 3, 4, 5, 6, 7, 8] ⟨1⟩ ⟨1700000001⟩ = .ok made ∧
    made.sum = .ok (sum, block) ∧ p.daemons.reply = w.reply ∧ w.RefusesRepeats ∧ w.IsHealthy ∧
    w.Accepts p.daemons.calls (p.submitCandidate block .primary sampleSession).2.daemons.calls ∧
    (p.submitCandidate block .primary sampleSession).2.store.blocks = [] := by
  obtain ⟨work, notify, made, block, sum, hwork, hmade, hsum⟩ := exists_sampleFind
  obtain ⟨_, text, _, -, htext, -⟩ := parts_of_sum hsum
  have hrepeats := sampleWire_refusesRepeats (some .transport)
  have hhealthy := sampleWire_isHealthy (some .transport)
  obtain ⟨haccepts, hstore, -⟩ :=
    submitCandidate_hides (p := samplePoolBehind (some .transport)) hrepeats hhealthy rfl
    htext rfl rfl rfl (by nofun) rfl sampleSession
  refine ⟨work, notify, made, block, sum, _, _, hwork, hmade, hsum, rfl, hrepeats, hhealthy, haccepts, ?_⟩
  rw [hstore]
  rfl

end Pool

end MergedMining
