import MergedMining.Daemon.Cluster

/-!
# Asking changes no daemon

Daemons answer as they please, but what they would answer is nothing that a caller can change: every request
only adds to the calls that were made (`call_reply`, `recover_reply`).
-/

namespace MergedMining

/-- A computation that leaves the answers of all daemons as they are. -/
def Asking.KeepsReplies {α : Type} (asking : Asking α) : Prop :=
  ∀ d : Daemons, (asking.run d).2.reply = d.reply

namespace Node

variable {α : Type}

theorem keepsReplies_call (node : Node) (method : String) (params : List Json) :
    (node.call method params).KeepsReplies :=
  fun _ => rfl

private theorem keepsReplies_bind {β : Type} {x : Asking α} {f : α → Asking β} (hx : x.KeepsReplies)
    (hf : ∀ a, (f a).KeepsReplies) : Asking.KeepsReplies (x >>= f) := by
  intro d
  show (ExceptT.bind x f d).2.reply = _
  have hd := hx d
  simp only [ExceptT.bind, ExceptT.mk, ExceptT.bindCont, bind, StateT.bind, ExceptT.run] at hd ⊢
  rcases hrun : x d with ⟨_ | a, d'⟩
  · rw [hrun] at hd
    exact hd
  · rw [hrun] at hd
    rw [← hd]
    exact hf a d'

theorem keepsReplies_read (node : Node) (method : String) (params : List Json) (decode : Json → Option α) :
    (node.read method params decode).KeepsReplies := by
  refine keepsReplies_bind (keepsReplies_call node method params) fun v d => ?_
  rcases decode v with _ | a <;> rfl

/-- What is read from an answer that has the right form. -/
theorem run_read_of_reply {node : Node} {method : String} {params : List Json} {decode : Json → Option α}
    {d : Daemons} {v : Json} {a : α} (hreply : d.reply d.calls ⟨node, method, .arr params⟩ = .ok v)
    (hdecode : decode v = some a) :
    ((node.read method params decode).run d).1 = .ok a := by
  have hcall : node.call method params d = (.ok v, (d.ask ⟨node, method, .arr params⟩).2) := by
    show ((d.reply d.calls ⟨node, method, .arr params⟩).mapError _, _) = _
    rw [hreply]
    rfl
  simp only [read, ExceptT.run, bind, ExceptT.bind, ExceptT.mk, ExceptT.bindCont, StateT.bind, hcall, hdecode]
  rfl

theorem keepsReplies_submit (node : Node) (method : String) (params : List Json) (accepts : Json → Bool) :
    (node.submit method params accepts).KeepsReplies := by
  refine keepsReplies_bind (keepsReplies_call node method params) fun v d => ?_
  by_cases h : accepts v = true
  · rw [if_pos h]
    rfl
  · rw [if_neg h]
    rfl

theorem isHealthy_reply (node : Node) (d : Daemons) : (node.isHealthy d).2.reply = d.reply := by
  have h := keepsReplies_read node "getconnectioncount" [] Json.toUInt64? d
  unfold isHealthy getConnectionCount
  rcases hrun : (node.read "getconnectioncount" [] Json.toUInt64?).run d with ⟨_ | _, d'⟩
  · rwa [hrun] at h
  · rwa [hrun] at h

end Node

namespace Cluster

variable {α : Type}

private theorem firstHealthy_reply (c : Cluster) (order : List (Fin c.nodes.length)) (d : Daemons) :
    (c.firstHealthy order d).2.reply = d.reply := by
  induction order generalizing d with
  | nil => rfl
  | cons index rest ih =>
    have h := (c.nodes.get index).isHealthy_reply d
    unfold firstHealthy
    rcases hnode : (c.nodes.get index).isHealthy d with ⟨_ | _, d'⟩
    · rw [hnode] at h
      rw [← h]
      exact ih d'
    · rwa [hnode] at h

theorem check_reply (c : Cluster) (d : Daemons) : (c.check d).2.2.reply = d.reply := by
  have h := c.activeNode.isHealthy_reply d
  unfold check
  rcases hnode : c.activeNode.isHealthy d with ⟨_ | _, d'⟩
  · rw [hnode] at h
    have hsearch := firstHealthy_reply c c.searchOrder d'
    rw [h] at hsearch
    dsimp only
    unfold findHealthy
    rcases hfirst : c.firstHealthy c.searchOrder d' with ⟨_ | _, d''⟩
    · rwa [hfirst] at hsearch
    · rwa [hfirst] at hsearch
  · rwa [hnode] at h

/-- Asking the nodes of a chain leaves the answers of all daemons as they are. -/
theorem call_reply {request : Node → Asking α} (hrequest : ∀ node, (request node).KeepsReplies) (c : Cluster)
    (d : Daemons) : (c.call request d).2.2.reply = d.reply := by
  have h := hrequest c.activeNode d
  unfold call
  rcases hrun : (request c.activeNode).run d with ⟨e | a, d'⟩
  · rw [hrun] at h
    have hcheck := c.check_reply d'
    rw [h] at hcheck
    dsimp only
    rcases hchecked : c.check d' with ⟨_ | _, c', d''⟩
    · rwa [hchecked] at hcheck
    · rw [hchecked] at hcheck
      rw [← hcheck]
      exact hrequest c'.activeNode d''
  · rwa [hrun] at h

theorem recover_reply (c : Cluster) (d : Daemons) : (c.recover d).2.reply = d.reply := by
  have h := c.firstNode.isHealthy_reply d
  unfold recover
  rcases hnode : c.firstNode.isHealthy d with ⟨_ | _, d'⟩
  · rwa [hnode] at h
  · rwa [hnode] at h

end Cluster

end MergedMining
