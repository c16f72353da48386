import MergedMining.Proofs.Daemon.Log

/-!
# The order in which nodes are tried

A check of a chain looks at its active node, and as long as nothing healthy is found at the nodes behind it, all
the way round and ending with the active one again.  A request is run on the active node, and after a failure at
most once more, on the node that a check has found.  What is done with the nodes is a list of deeds (`Deed`),
and the lists that a check and a request can come to are spelled out (`Search`, `Failover`): every check and
every request comes to one of them (`failover_in_order`).
-/

namespace MergedMining

/-! ### Deeds -/

/-- The question whether a node is healthy. -/
def Node.look (node : Node) : Call := ⟨node, "getconnectioncount", .arr []⟩

/-- A node is healthy if it answers the question with a number. -/
def Node.AnswersLook (node : Node) (d : Daemons) : Prop :=
  ∃ v count, d.reply d.calls node.look = .ok v ∧ Json.toUInt64? v = some count

theorem Node.isHealthy_spec (node : Node) (d : Daemons) :
    (node.isHealthy d).2 = (d.ask node.look).2 ∧ ((node.isHealthy d).1 = true ↔ node.AnswersLook d) := by
  unfold isHealthy getConnectionCount AnswersLook
  rw [read, run_call_bind]
  unfold look
  rcases d.reply d.calls ⟨node, "getconnectioncount", .arr []⟩ with e | v
  · refine ⟨rfl, iff_of_false (fun hhealthy => by cases hhealthy) ?_⟩
    rintro ⟨v, count, hv, -⟩
    cases hv
  · dsimp only
    rcases hcount : Json.toUInt64? v with _ | count
    · refine ⟨rfl, iff_of_false (fun hhealthy => by cases hhealthy) ?_⟩
      rintro ⟨v', count, hv, hcount'⟩
      cases hv
      rw [hcount] at hcount'
      cases hcount'
    · exact ⟨rfl, iff_of_true rfl ⟨v, count, rfl, hcount⟩⟩

namespace Cluster

variable {α : Type}

/-- What is done with a node, given by its place: to look whether it is healthy, or to run a request on it. -/
inductive Deed (α : Type)
  | look (place : Nat) (healthy : Bool)
  | run (place : Nat) (answer : Except Fault α)

/-- Deeds that are done one after the other, and what they make of the daemons. -/
inductive Does (nodes : List Node) (request : Node → Asking α) : Daemons → List (Deed α) → Daemons → Prop
  | nothing (d : Daemons) : Does nodes request d [] d
  | look {place : Nat} {node : Node} {healthy : Bool} {d d' : Daemons} {deeds : List (Deed α)}
      (hnode : nodes[place]? = some node) (hhealthy : healthy = true ↔ node.AnswersLook d)
      (hrest : Does nodes request (d.ask node.look).2 deeds d') :
      Does nodes request d (.look place healthy :: deeds) d'
  | run {place : Nat} {node : Node} {answer : Except Fault α} {d mid d' : Daemons} {deeds : List (Deed α)}
      (hnode : nodes[place]? = some node) (hrun : (request node).run d = (answer, mid))
      (hrest : Does nodes request mid deeds d') : Does nodes request d (.run place answer :: deeds) d'

variable {nodes : List Node} {request : Node → Asking α} {d mid d' : Daemons} {deeds later : List (Deed α)}

theorem Does.append (h : Does nodes request d deeds mid) (hlater : Does nodes request mid later d') :
    Does nodes request d (deeds ++ later) d' := by
  induction h with
  | nothing => exact hlater
  | look hnode hhealthy _ ih => exact .look hnode hhealthy (ih hlater)
  | run hnode hrun _ ih => exact .run hnode hrun (ih hlater)

/-! ### What a check and a request come to -/

/-- The node at some distance behind the active one, counted all the way round. -/
def placeBehind (c : Cluster) (distance : Nat) : Nat := (c.active + distance) % c.nodes.length

/-- Looks at the active node and those behind it up to some distance.  All but the last one are found sick. -/
def looksUpTo (c : Cluster) (distance : Nat) (healthy : Bool) : List (Deed α) :=
  (List.range distance).map (fun k => .look (c.placeBehind k) false) ++ [.look (c.placeBehind distance) healthy]

/-- The same nodes of the same chain, of which the one at a place is active. -/
structure MovedTo (c : Cluster) (place : Nat) (c' : Cluster) : Prop where
  chain : c'.chain = c.chain
  nodes : c'.nodes = c.nodes
  active : c'.active = place

/-- What a check comes to: the first healthy node becomes active, or all were sick, the active one twice. -/
inductive Search (c : Cluster) : List (Deed α) → Except Fault Unit → Cluster → Prop
  | found {distance : Nat} {c' : Cluster} (hdistance : distance ≤ c.nodes.length)
      (hmoved : c.MovedTo (c.placeBehind distance) c') : Search c (c.looksUpTo distance true) (.ok ()) c'
  | nowhere : Search c (c.looksUpTo c.nodes.length false) (.error (.noHealthyNodes c.chain)) c

/-- What a request comes to: it succeeds at once; or it fails, and a check finds nothing healthy; or it fails,
and is run once more where a check has found a healthy node. -/
inductive Failover (c : Cluster) : List (Deed α) → Except Fault α → Cluster → Prop
  | first (a : α) : Failover c [.run c.active (.ok a)] (.ok a) c
  | nowhere (e : Fault) : Failover c (.run c.active (.error e) :: c.looksUpTo c.nodes.length false)
      (.error (.noHealthyNodes c.chain)) c
  | again (e : Fault) {distance : Nat} {c' : Cluster} (answer : Except Fault α)
      (hdistance : distance ≤ c.nodes.length) (hmoved : c.MovedTo (c.placeBehind distance) c') :
      Failover c
        (.run c.active (.error e) :: c.looksUpTo distance true ++ [.run (c.placeBehind distance) answer]) answer c'

/-! ### The search -/

theorem placeBehind_zero (c : Cluster) : c.placeBehind 0 = c.active := Nat.mod_eq_of_lt c.active_lt

theorem getElem?_active (c : Cluster) : c.nodes[c.active]? = some c.activeNode := List.getElem?_eq_getElem c.active_lt

private theorem does_isHealthy (request : Node → Asking α) {place : Nat} {node : Node} {healthy : Bool}
    (hnode : nodes[place]? = some node) (h : node.isHealthy d = (healthy, d')) :
    Does nodes request d [.look place healthy] d' := by
  obtain ⟨hdaemons, hhealthy⟩ := node.isHealthy_spec d
  rw [h] at hdaemons hhealthy
  rw [show d' = _ from hdaemons]
  exact .look hnode hhealthy (.nothing _)

private theorem does_firstHealthy (c : Cluster) (request : Node → Asking α) (order : List (Fin c.nodes.length))
    (d : Daemons) :
    (∃ front index back, order = front ++ index :: back ∧ (c.firstHealthy order d).1 = some index ∧
      Does c.nodes request d (front.map (fun i => .look i.val false) ++ [.look index.val true])
        (c.firstHealthy order d).2) ∨
    (c.firstHealthy order d).1 = none ∧
      Does c.nodes request d (order.map fun i => .look i.val false) (c.firstHealthy order d).2 := by
  induction order generalizing d with
  | nil => exact .inr ⟨rfl, .nothing d⟩
  | cons first rest ih =>
    have hnode : c.nodes[first.val]? = some (c.nodes.get first) := List.getElem?_eq_getElem first.isLt
    unfold firstHealthy
    rcases hlook : (c.nodes.get first).isHealthy d with ⟨_ | _, d'⟩
    · have hdone := does_isHealthy request hnode hlook
      rcases ih d' with ⟨front, index, back, rfl, hindex, hlater⟩ | ⟨hnone, hlater⟩
      · exact .inl ⟨first :: front, index, back, rfl, hindex, hdone.append hlater⟩
      · exact .inr ⟨hnone, hdone.append hlater⟩
    · exact .inl ⟨[], first, rest, rfl, rfl, does_isHealthy request hnode hlook⟩

private theorem map_val_searchOrder (c : Cluster) :
    c.searchOrder.map Fin.val = (List.range c.nodes.length).map fun k => c.placeBehind (k + 1) := by
  rw [searchOrder, List.map_map]
  rfl

/-- Looks that go on behind the active node are looks that start with it. -/
private theorem looks_cons (c : Cluster) (distance : Nat) :
    .look c.active false :: (List.range distance).map (fun k => .look (c.placeBehind (k + 1)) false) =
      (List.range (distance + 1)).map fun k => (.look (c.placeBehind k) false : Deed α) := by
  rw [List.range_succ_eq_map, List.map_cons, List.map_map, placeBehind_zero]
  rfl

/-- Looks at some nodes are looks at their places. -/
private theorem map_look {n : Nat} {order : List (Fin n)} {distances : List Nat} {place : Nat → Nat}
    (h : order.map Fin.val = distances.map place) :
    order.map (fun i => (.look i.val false : Deed α)) = distances.map fun k => .look (place k) false := by
  have hmap := congrArg (List.map fun place => (.look place false : Deed α)) h
  rwa [List.map_map, List.map_map] at hmap

private theorem looksUpTo_of_searchOrder {c : Cluster} {front back : List (Fin c.nodes.length)}
    {index : Fin c.nodes.length} (h : c.searchOrder = front ++ index :: back) :
    front.length < c.nodes.length ∧ index.val = c.placeBehind (front.length + 1) ∧
      .look c.active false :: (front.map (fun i => .look i.val false) ++ [.look index.val true]) =
        c.looksUpTo (α := α) (front.length + 1) true := by
  have hvals := c.map_val_searchOrder
  rw [h, List.map_append, List.map_cons] at hvals
  have hlen := congrArg List.length hvals
  simp only [List.length_append, List.length_cons, List.length_map, List.length_range] at hlen
  -- the places are those at the distances from one on
  have hfront : front.map Fin.val = (List.range front.length).map fun k => c.placeBehind (k + 1) := by
    have htake := congrArg (List.take front.length) hvals
    rwa [List.take_left' (List.length_map _), ← List.map_take, List.take_range, Nat.min_eq_left (by omega)] at htake
  have hindex : index.val = c.placeBehind (front.length + 1) := by
    have hget := congrArg (·[front.length]?) hvals
    simpa [List.getElem?_append_right, show front.length < c.nodes.length by omega] using hget
  refine ⟨by omega, hindex, ?_⟩
  rw [looksUpTo, ← looks_cons, map_look hfront, hindex, List.cons_append]

private theorem looksUpTo_of_none (c : Cluster) :
    .look c.active false :: c.searchOrder.map (fun i => .look i.val false) =
      c.looksUpTo (α := α) c.nodes.length false := by
  rw [map_look c.map_val_searchOrder, looks_cons, List.range_succ, List.map_append]
  rfl

private theorem movedTo_startRecovery {c c' : Cluster} {place : Nat} (h : c.MovedTo place c') :
    c.MovedTo place c'.startRecovery := by
  unfold startRecovery
  split
  · exact h
  · exact ⟨h.chain, h.nodes, h.active⟩

/-- Every check is a search. -/
theorem exists_search (c : Cluster) (request : Node → Asking α) (d : Daemons) :
    ∃ deeds, Does c.nodes request d deeds (c.check d).2.2 ∧ c.Search deeds (c.check d).1 (c.check d).2.1 := by
  unfold check
  rcases hlook : c.activeNode.isHealthy d with ⟨_ | _, d'⟩
  · have hfirst := does_isHealthy request c.getElem?_active hlook
    dsimp only
    unfold findHealthy
    rcases c.does_firstHealthy request c.searchOrder d' with ⟨front, index, back, horder, hfound, hdone⟩ |
        ⟨hnone, hdone⟩
    · generalize c.firstHealthy c.searchOrder d' = found at hfound hdone
      obtain ⟨_, d''⟩ := found
      obtain rfl : _ = some index := hfound
      obtain ⟨hlt, hindex, hlooks⟩ := looksUpTo_of_searchOrder (α := α) horder
      refine ⟨_, hfirst.append hdone, ?_⟩
      rw [List.singleton_append, hlooks]
      exact .found hlt (movedTo_startRecovery ⟨rfl, rfl, hindex⟩)
    · generalize c.firstHealthy c.searchOrder d' = found at hnone hdone
      obtain ⟨_, d''⟩ := found
      obtain rfl : _ = none := hnone
      refine ⟨_, hfirst.append hdone, ?_⟩
      rw [List.singleton_append, looksUpTo_of_none]
      exact .nowhere
  · refine ⟨_, does_isHealthy request c.getElem?_active hlook, ?_⟩
    have hactive := c.placeBehind_zero
    have hlooks : [.look c.active true] = c.looksUpTo (α := α) 0 true := by
      rw [looksUpTo, hactive]
      rfl
    rw [hlooks]
    exact .found (Nat.zero_le _) ⟨rfl, rfl, hactive.symm⟩

/-- A check is a search, and a request is run at most twice, with a search in between. -/
theorem failover_in_order (c : Cluster) (request : Node → Asking α) (d : Daemons) :
    (∃ deeds, Does c.nodes request d deeds (c.check d).2.2 ∧ c.Search deeds (c.check d).1 (c.check d).2.1) ∧
      ∃ deeds, Does c.nodes request d deeds (c.call request d).2.2 ∧
        c.Failover deeds (c.call request d).1 (c.call request d).2.1 := by
  refine ⟨c.exists_search request d, ?_⟩
  unfold call
  rcases hrun : (request c.activeNode).run d with ⟨e | a, mid⟩
  · dsimp only
    obtain ⟨looks, hlooks, hsearch⟩ := c.exists_search request mid
    generalize c.check mid = checked at hlooks hsearch
    obtain ⟨result, c', d'⟩ := checked
    dsimp only at hlooks hsearch
    have hfailed : Does c.nodes request d (.run c.active (.error e) :: looks) d' := .run c.getElem?_active hrun hlooks
    cases hsearch with
    | nowhere => exact ⟨_, hfailed, .nowhere e⟩
    | @found distance _ hdistance hmoved =>
      have hnode : c.nodes[c.placeBehind distance]? = some c'.activeNode := by
        rw [← hmoved.nodes, ← hmoved.active]
        exact c'.getElem?_active
      exact ⟨_, hfailed.append (.run hnode rfl (.nothing _)), .again e _ hdistance hmoved⟩
  · exact ⟨_, .run c.getElem?_active hrun (.nothing mid), .first a⟩

end Cluster

end MergedMining
