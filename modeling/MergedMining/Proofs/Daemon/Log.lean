import MergedMining.Daemon.Cluster

/-!
# What was asked and what was answered

Daemons answer in the light of all earlier calls, so the calls that were made determine the answers that were
given.  Together they are a log, and every request adds to it.  What is handed in to the nodes of a chain goes
to the active one first, and is accepted exactly if one of the added answers is an acceptance (`call_submit`),
no matter how many nodes had to be tried.
-/

namespace MergedMining

namespace Daemons

/-- A call and its answer. -/
structure Exchange where
  call : Call
  answer : Except CallFault Json

/-- Calls, the latest first, with the answer that each got after those before it. -/
def exchanges (reply : List Call → Call → Except CallFault Json) : List Call → List Exchange
  | [] => []
  | call :: earlier => ⟨call, reply earlier call⟩ :: exchanges reply earlier

/-- The calls made so far with their answers, the latest first. -/
def log (d : Daemons) : List Exchange := exchanges d.reply d.calls

/-- A call made now, and its answer. -/
def exchange (d : Daemons) (call : Call) : Exchange := ⟨call, d.reply d.calls call⟩

/-- What daemons are after some more exchanges, the latest first. -/
structure After (d : Daemons) (new : List Exchange) (d' : Daemons) : Prop where
  reply : d'.reply = d.reply
  log : d'.log = new ++ d.log

variable {d d' d'' : Daemons} {new newer : List Exchange}

theorem After.refl (d : Daemons) : d.After [] d := ⟨rfl, rfl⟩

theorem After.trans (h : d.After new d') (h' : d'.After newer d'') : d.After (newer ++ new) d'' := by
  refine ⟨h'.reply.trans h.reply, ?_⟩
  rw [h'.log, h.log, List.append_assoc]

/-- The log tells which exchanges were added. -/
theorem After.unique (h : d.After new d') (h' : d.After newer d') : newer = new :=
  List.append_cancel_right (h'.log.symm.trans h.log)

theorem after_ask (d : Daemons) (call : Call) : d.After [d.exchange call] (d.ask call).2 := ⟨rfl, rfl⟩

/-- Calls of others leave their exchanges behind. -/
theorem exists_after_calls (d : Daemons) (calls : List Call) :
    ∃ new, d.After new { d with calls := calls ++ d.calls } := by
  induction calls with
  | nil => exact ⟨[], .refl d⟩
  | cons call calls ih =>
    obtain ⟨new, hafter⟩ := ih
    exact ⟨_, hafter.trans (after_ask _ call)⟩

/-! ### Answers -/

/-- Whether a call of a method was answered with a value. -/
def Answered (new : List Exchange) (method : String) (value : Json) : Prop :=
  ∃ x ∈ new, x.call.method = method ∧ x.answer = .ok value

/-- Whether a call with these parameters was answered with what reads as a value. -/
def Learned {α : Type} (new : List Exchange) (method : String) (params : List Json) (decode : Json → Option α)
    (a : α) : Prop :=
  ∃ x ∈ new, x.call.method = method ∧ x.call.params = .arr params ∧ ∃ v, x.answer = .ok v ∧ decode v = some a

/-- Whether no other method was called. -/
def Only (new : List Exchange) (method : String) : Prop := ∀ x ∈ new, x.call.method = method

variable {method other : String} {value : Json}

theorem answered_append : Answered (newer ++ new) method value ↔
    Answered newer method value ∨ Answered new method value := by
  simp only [Answered, List.mem_append, or_and_right, exists_or]

theorem not_answered_nil : ¬ Answered [] method value := by
  rintro ⟨x, hx, -⟩
  cases hx

theorem Learned.mono {α : Type} {params : List Json} {decode : Json → Option α} {a : α}
    (h : Learned new method params decode a) (hsubset : new ⊆ newer) : Learned newer method params decode a := by
  obtain ⟨x, hx, hrest⟩ := h
  exact ⟨x, hsubset hx, hrest⟩

theorem only_singleton (x : Exchange) : Only [x] x.call.method := by
  intro y hy
  rw [List.mem_singleton.1 hy]

theorem Only.not_answered (h : Only new other) (hne : method ≠ other) : ¬ Answered new method value := by
  rintro ⟨x, hx, hmethod, -⟩
  exact hne (hmethod.symm.trans (h x hx))

theorem Only.append (h : Only newer method) (h' : Only new method) : Only (newer ++ new) method := by
  intro x hx
  rcases List.mem_append.1 hx with hx | hx
  · exact h x hx
  · exact h' x hx

end Daemons

open Daemons (Exchange Answered Learned Only)

/-! ### Calls of one node -/

namespace Node

variable {α : Type}

theorem run_call_bind (node : Node) (method : String) (params : List Json) (f : Json → Asking α) (d : Daemons) :
    (node.call method params >>= f).run d =
      match d.reply d.calls ⟨node, method, .arr params⟩ with
      | .error e => (.error (node.fault method e), (d.ask ⟨node, method, .arr params⟩).2)
      | .ok v => (f v).run (d.ask ⟨node, method, .arr params⟩).2 := by
  have hcall : node.call method params d =
      ((d.reply d.calls ⟨node, method, .arr params⟩).mapError (node.fault method),
        (d.ask ⟨node, method, .arr params⟩).2) := rfl
  simp only [ExceptT.run, bind, ExceptT.bind, ExceptT.mk, ExceptT.bindCont, StateT.bind, hcall]
  rcases d.reply d.calls ⟨node, method, .arr params⟩ with e | v <;> rfl

/-- Reading is one exchange. -/
theorem after_read (node : Node) (method : String) (params : List Json) (decode : Json → Option α) (d : Daemons) :
    d.After [d.exchange ⟨node, method, .arr params⟩] ((node.read method params decode).run d).2 := by
  have hask := d.after_ask ⟨node, method, .arr params⟩
  rw [read, run_call_bind]
  split
  · exact hask
  · next v _ =>
    rcases decode v with _ | a
    · exact hask
    · exact hask

/-- What is read was answered. -/
theorem learned_of_read {node : Node} {method : String} {params : List Json} {decode : Json → Option α} {d : Daemons}
    {a : α} (h : ((node.read method params decode).run d).1 = .ok a) :
    Learned [d.exchange ⟨node, method, .arr params⟩] method params decode a := by
  rw [read, run_call_bind] at h
  rcases hreply : d.reply d.calls ⟨node, method, .arr params⟩ with e | v
  · rw [hreply] at h
    cases h
  · rw [hreply] at h
    dsimp only at h
    rcases hdecode : decode v with _ | b
    · rw [hdecode] at h
      cases h
    · rw [hdecode] at h
      cases h
      exact ⟨_, List.mem_singleton.2 rfl, rfl, rfl, v, hreply, hdecode⟩

theorem acceptsBlock_iff (v : Json) : acceptsBlock v = true ↔ v = .null := by
  cases v <;> simp [acceptsBlock]

theorem acceptsAuxBlock_iff (v : Json) : acceptsAuxBlock v = true ↔ v = .bool true := by
  unfold acceptsAuxBlock
  split
  · simp
  · next h => simpa using h

/-- Handing in is one exchange, and succeeds if it is answered with an acceptance. -/
theorem after_submit (node : Node) (method : String) (params : List Json) (accepts : Json → Bool) (d : Daemons) :
    d.After [d.exchange ⟨node, method, .arr params⟩] ((node.submit method params accepts).run d).2 ∧
      (((node.submit method params accepts).run d).1 = .ok () ↔
        ∃ v, (d.exchange ⟨node, method, .arr params⟩).answer = .ok v ∧ accepts v = true) := by
  have hask := d.after_ask ⟨node, method, .arr params⟩
  have hanswer : (d.exchange ⟨node, method, .arr params⟩).answer = d.reply d.calls ⟨node, method, .arr params⟩ := rfl
  rw [submit, run_call_bind, hanswer]
  rcases d.reply d.calls ⟨node, method, .arr params⟩ with e | v
  · refine ⟨hask, ?_⟩
    constructor
    · intro h
      cases h
    · rintro ⟨v, hv, -⟩
      cases hv
  · dsimp only
    by_cases haccepts : accepts v = true
    · rw [if_pos haccepts]
      exact ⟨hask, fun _ => ⟨v, rfl, haccepts⟩, fun _ => rfl⟩
    · rw [if_neg haccepts]
      refine ⟨hask, ?_⟩
      constructor
      · intro h
        cases h
      · rintro ⟨w, hw, haccepted⟩
        cases hw
        exact absurd haccepted haccepts

theorem after_isHealthy (node : Node) (d : Daemons) :
    ∃ new, d.After new (node.isHealthy d).2 ∧ Only new "getconnectioncount" := by
  have hread := node.after_read "getconnectioncount" [] Json.toUInt64? d
  refine ⟨[d.exchange ⟨node, "getconnectioncount", .arr []⟩], ?_, Daemons.only_singleton _⟩
  unfold isHealthy getConnectionCount
  rcases hrun : (node.read "getconnectioncount" [] Json.toUInt64?).run d with ⟨_ | _, d'⟩
  · rwa [hrun] at hread
  · rwa [hrun] at hread

end Node

/-! ### Calls of the nodes of a chain -/

namespace Cluster

private theorem after_firstHealthy (c : Cluster) (order : List (Fin c.nodes.length)) (d : Daemons) :
    ∃ new, d.After new (c.firstHealthy order d).2 ∧ Only new "getconnectioncount" := by
  induction order generalizing d with
  | nil => exact ⟨[], .refl d, nofun⟩
  | cons index rest ih =>
    obtain ⟨new, hafter, honly⟩ := (c.nodes.get index).after_isHealthy d
    unfold firstHealthy
    rcases hnode : (c.nodes.get index).isHealthy d with ⟨_ | _, d'⟩
    · rw [hnode] at hafter
      obtain ⟨newer, hafter', honly'⟩ := ih d'
      exact ⟨newer ++ new, hafter.trans hafter', honly'.append honly⟩
    · rw [hnode] at hafter
      exact ⟨new, hafter, honly⟩

/-- A check of the nodes of a chain does nothing but look after them. -/
theorem after_check (c : Cluster) (d : Daemons) :
    ∃ new, d.After new (c.check d).2.2 ∧ Only new "getconnectioncount" := by
  obtain ⟨new, hafter, honly⟩ := c.activeNode.after_isHealthy d
  unfold check
  rcases hnode : c.activeNode.isHealthy d with ⟨_ | _, d'⟩
  · rw [hnode] at hafter
    obtain ⟨newer, hafter', honly'⟩ := after_firstHealthy c c.searchOrder d'
    have hboth := hafter.trans hafter'
    dsimp only
    unfold findHealthy
    rcases hfirst : c.firstHealthy c.searchOrder d' with ⟨_ | _, d''⟩
    · rw [hfirst] at hboth
      exact ⟨_, hboth, honly'.append honly⟩
    · rw [hfirst] at hboth
      exact ⟨_, hboth, honly'.append honly⟩
  · rw [hnode] at hafter
    exact ⟨new, hafter, honly⟩

/-- How a request of one exchange ends, when the given exchanges follow the one with the active node.  After a
failure the nodes are looked after, and a node of the chain is asked once more. -/
inductive Called {α : Type} (c : Cluster) (request : Node → Asking α) (method : String) (params : List Json)
    (d : Daemons) :
    List Exchange → Except Fault α → Prop
  | first {a : α} (hfirst : ((request c.activeNode).run d).1 = .ok a) : Called c request method params d [] (.ok a)
  | unhealthy {e e' : Fault} {looks : List Exchange} (hfirst : ((request c.activeNode).run d).1 = .error e)
      (hlooks : Only looks "getconnectioncount") : Called c request method params d looks (.error e')
  | again {e : Fault} {looks : List Exchange} {node : Node} {d' : Daemons}
      (hfirst : ((request c.activeNode).run d).1 = .error e) (hlooks : Only looks "getconnectioncount") :
      Called c request method params d ([d'.exchange ⟨node, method, .arr params⟩] ++ looks) ((request node).run d').1

/-- Nothing but the request follows, looks after the nodes apart. -/
theorem Called.only {α : Type} {c : Cluster} {request : Node → Asking α} {method : String} {params : List Json}
    {d : Daemons} {later : List Exchange} {result : Except Fault α}
    (h : c.Called request method params d later result) :
    ∀ x ∈ later, (x.call.method = method ∧ x.call.params = .arr params) ∨ x.call.method = "getconnectioncount" := by
  intro x hx
  cases h with
  | first => cases hx
  | unhealthy _ hlooks => exact .inr (hlooks x hx)
  | again _ hlooks =>
    rcases List.mem_append.1 hx with hx | hx
    · rw [List.mem_singleton.1 hx]
      exact .inl ⟨rfl, rfl⟩
    · exact .inr (hlooks x hx)

/-- A request that succeeds is made once. -/
theorem call_of_first {α : Type} {c : Cluster} {request : Node → Asking α} {d : Daemons} {a : α}
    (h : ((request c.activeNode).run d).1 = .ok a) :
    c.call request d = (.ok a, c, ((request c.activeNode).run d).2) := by
  unfold call
  rcases hrun : (request c.activeNode).run d with ⟨answer, d'⟩
  rw [hrun] at h
  cases h
  rfl

/-- What the nodes of a chain are asked for goes to the active node first. -/
theorem call_called {α : Type} {request : Node → Asking α} {method : String} {params : List Json}
    (hexchange : ∀ (node : Node) (d : Daemons),
      d.After [d.exchange ⟨node, method, .arr params⟩] ((request node).run d).2) (c : Cluster) (d : Daemons) :
    ∃ later, d.After (later ++ [d.exchange ⟨c.activeNode, method, .arr params⟩]) (c.call request d).2.2 ∧
      c.Called request method params d later (c.call request d).1 := by
  have hafter := hexchange c.activeNode d
  unfold call
  rcases hrun : (request c.activeNode).run d with ⟨e | a, d'⟩
  · rw [hrun] at hafter
    obtain ⟨looks, hlooks, honly⟩ := c.after_check d'
    have hseen := hafter.trans hlooks
    dsimp only
    rcases hcheck : c.check d' with ⟨e' | ⟨⟩, c', d''⟩
    · rw [hcheck] at hseen
      exact ⟨looks, hseen, .unhealthy (by rw [hrun]) honly⟩
    · rw [hcheck] at hseen
      exact ⟨_, hseen.trans (hexchange c'.activeNode d''), .again (by rw [hrun]) honly⟩
  · rw [hrun] at hafter
    exact ⟨[], hafter, .first (by rw [hrun])⟩

/-- What is handed in to the nodes of a chain goes to the active node, and after a failure once more to some
node of the chain, with nothing but looks after the nodes in between.  It is accepted exactly if it was answered
with an acceptance. -/
theorem call_submit {method : String} {params : List Json} {accepts : Json → Bool} {value : Json}
    (haccepts : ∀ v, accepts v = true ↔ v = value) (hmethod : method ≠ "getconnectioncount") (c : Cluster)
    (d : Daemons) :
    ∃ later, d.After (later ++ [d.exchange ⟨c.activeNode, method, .arr params⟩])
        (c.call (fun node => node.submit method params accepts) d).2.2 ∧
      (∀ x ∈ later, x.call.method = method ∨ x.call.method = "getconnectioncount") ∧
      ((c.call (fun node => node.submit method params accepts) d).1 = .ok () ↔
        Answered (later ++ [d.exchange ⟨c.activeNode, method, .arr params⟩]) method value) := by
  have hanswered : ∀ (node : Node) (d : Daemons), ((node.submit method params accepts).run d).1 = .ok () ↔
      Answered [d.exchange ⟨node, method, .arr params⟩] method value := by
    intro node d
    rw [(node.after_submit method params accepts d).2]
    simp [Answered, Daemons.exchange, haccepts]
  -- where the first answer was no acceptance, what counts is a later one
  have hfailed : ∀ {e}, ((c.activeNode.submit method params accepts).run d).1 = .error e →
      ¬ Answered [d.exchange ⟨c.activeNode, method, .arr params⟩] method value := by
    intro e hfirst haccepted
    rw [(hanswered c.activeNode d).2 haccepted] at hfirst
    cases hfirst
  obtain ⟨later, hafter, hcalled⟩ :=
    call_called (fun node d => (node.after_submit method params accepts d).1) c d
  refine ⟨later, hafter, fun x hx => (hcalled.only x hx).imp_left And.left, ?_⟩
  generalize (c.call (fun node => node.submit method params accepts) d).1 = result at hcalled ⊢
  cases hcalled with
  | first hfirst => exact iff_of_true rfl ((hanswered c.activeNode d).1 hfirst)
  | unhealthy hfirst hlooks =>
    simp only [Daemons.answered_append, hlooks.not_answered hmethod, hfailed hfirst, or_self, reduceCtorEq]
  | @again _ looks node d' hfirst hlooks =>
    simp only [hanswered node d', Daemons.answered_append, hlooks.not_answered hmethod, hfailed hfirst, or_false]

/-- What the nodes of a chain are asked for goes to the active node, and after a failure once more to some node of the
chain, with nothing but looks after the nodes in between.  What is read was answered. -/
theorem call_read {α : Type} (method : String) (params : List Json) (decode : Json → Option α) (c : Cluster)
    (d : Daemons) :
    ∃ later, d.After (later ++ [d.exchange ⟨c.activeNode, method, .arr params⟩])
        (c.call (fun node => node.read method params decode) d).2.2 ∧
      (∀ x ∈ later, (x.call.method = method ∧ x.call.params = .arr params) ∨ x.call.method = "getconnectioncount") ∧
      ∀ a, (c.call (fun node => node.read method params decode) d).1 = .ok a →
        Learned (later ++ [d.exchange ⟨c.activeNode, method, .arr params⟩]) method params decode a := by
  obtain ⟨later, hafter, hcalled⟩ := call_called (fun node d => node.after_read method params decode d) c d
  refine ⟨later, hafter, hcalled.only, fun a ha => ?_⟩
  generalize (c.call (fun node => node.read method params decode) d).1 = result at hcalled ha
  cases hcalled with
  | first hfirst =>
    cases ha
    exact Node.learned_of_read hfirst
  | unhealthy => cases ha
  | again =>
    refine (Node.learned_of_read ha).mono ?_
    rw [List.append_assoc]
    exact List.subset_append_left _ _

end Cluster

end MergedMining
