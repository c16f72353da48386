import MergedMining.Daemon.Request

/-!
# The nodes of a chain

Calls go to one active node.  When it is not healthy the others are tried in order, starting behind it and
ending with it, and the first healthy one becomes active.  While the first node is not the active one, a
recovery task looks after it and makes it active again once it is healthy.
-/

namespace MergedMining

/-- The nodes of a chain, in order of preference. -/
structure Cluster where
  chain : String
  nodes : List Node
  active : Nat
  recovering : Bool
  active_lt : active < nodes.length

namespace Cluster

/-- Nodes of which the first is active. -/
def ofNodes (chain : String) (nodes : List Node) : Except ValidationFault Cluster :=
  if h : 0 < nodes.length then .ok ⟨chain, nodes, 0, false, h⟩ else .error (.noNodes chain)

/-- The active node. -/
def activeNode (c : Cluster) : Node := c.nodes.get ⟨c.active, c.active_lt⟩

/-- The node of first choice. -/
def firstNode (c : Cluster) : Node := c.nodes.get ⟨0, Nat.zero_lt_of_lt c.active_lt⟩

/-- Makes another node active. -/
def activate (c : Cluster) (index : Fin c.nodes.length) : Cluster :=
  { c with active := index.val, active_lt := index.isLt }

/-- The nodes in the order in which a healthy one is searched: from behind the active one all the way round to it. -/
def searchOrder (c : Cluster) : List (Fin c.nodes.length) :=
  (List.range c.nodes.length).map fun offset =>
    ⟨(c.active + (offset + 1)) % c.nodes.length, Nat.mod_lt _ (Nat.zero_lt_of_lt c.active_lt)⟩

/-- The first healthy one of some nodes. -/
def firstHealthy (c : Cluster) : List (Fin c.nodes.length) → StateM Daemons (Option (Fin c.nodes.length))
  | [] => pure none
  | index :: rest => fun d =>
    match (c.nodes.get index).isHealthy d with
    | (true, d) => (some index, d)
    | (false, d) => firstHealthy c rest d

/-- Makes the next healthy node active. -/
def findHealthy (c : Cluster) (d : Daemons) : Except Fault Unit × Cluster × Daemons :=
  match c.firstHealthy c.searchOrder d with
  | (some index, d) => (.ok (), c.activate index, d)
  | (none, d) => (.error (.noHealthyNodes c.chain), c, d)

/-- Starts the recovery task when it is needed and not running. -/
def startRecovery (c : Cluster) : Cluster :=
  if c.active = 0 then c else { c with recovering := true }

/-- Makes sure that the active node is healthy. -/
def check (c : Cluster) (d : Daemons) : Except Fault Unit × Cluster × Daemons :=
  match c.activeNode.isHealthy d with
  | (true, d) => (.ok (), c, d)
  | (false, d) =>
    match c.findHealthy d with
    | (.ok (), c, d) => (.ok (), c.startRecovery, d)
    | (.error e, c, d) => (.error e, c, d)

/-- Asks the active node, and after a failure once more the node that is active after a check. -/
def call {α : Type} (c : Cluster) (request : Node → Asking α) (d : Daemons) : Except Fault α × Cluster × Daemons :=
  match (request c.activeNode).run d with
  | (.ok a, d) => (.ok a, c, d)
  | (.error _, d) =>
    match c.check d with
    | (.error e, c, d) => (.error e, c, d)
    | (.ok (), c, d) =>
      let (answer, d) := (request c.activeNode).run d
      (answer, c, d)

/-- One look of the recovery task at the first node; a healthy one becomes active and ends the task. -/
def recover (c : Cluster) (d : Daemons) : Cluster × Daemons :=
  match c.firstNode.isHealthy d with
  | (true, d) =>
    ({ c with active := 0, recovering := false, active_lt := Nat.zero_lt_of_lt c.active_lt }, d)
  | (false, d) => (c, d)

/-- Ends the recovery task. -/
def cancel (c : Cluster) : Cluster := { c with recovering := false }

end Cluster

end MergedMining
