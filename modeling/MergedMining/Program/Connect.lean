import MergedMining.Daemon.Http
import MergedMining.Pool.Connect
import MergedMining.Settings.Load

/-!
# The daemons of the settings

The daemons that the settings name are reached over HTTP, each with its own name and password.
-/

namespace MergedMining

namespace ChainSettings

/-- The daemons of a chain, given its place among the chains. -/
def daemonNodes (c : ChainSettings) (index : Nat) : List Node :=
  c.nodes.zipIdx.map fun (n, i) => ⟨index, i, n.url⟩

/-- Connects to the daemons of a chain. -/
def connect (c : ChainSettings) (index : Nat) (d : Daemons) : Except Failure ChainNode × Daemons :=
  match Chain.ofName c.name, Cluster.ofNodes c.name (c.daemonNodes index) with
  | .error e, _ => (.error (.ofValidation e), d)
  | _, .error e => (.error (.ofValidation e), d)
  | .ok chain, .ok cluster =>
    let (result, _, d) := ChainNode.connect chain cluster c.rewardAddress d
    (result, d)

end ChainSettings

/-- Connects to the daemons of chains in turn; `index` is the place of the first. -/
def connectChains (index : Nat) : List ChainSettings → Daemons → Except Failure (List ChainNode) × Daemons
  | [], d => (.ok [], d)
  | c :: rest, d =>
    match c.connect index d with
    | (.error e, d) => (.error (.during (.connecting c.name) e), d)
    | (.ok node, d) =>
      match connectChains (index + 1) rest d with
      | (.error e, d) => (.error e, d)
      | (.ok nodes, d) => (.ok (node :: nodes), d)

namespace Settings

/-- How a node is called over HTTP. -/
def client? (s : Settings) (node : Node) : Option HttpClient := do
  let chain ← s.chains[node.chain]?
  let n ← chain.nodes[node.index]?
  return ⟨n.url, n.username, n.password, 0⟩

/-- The daemons of the settings, reached by a transport. -/
def daemons (s : Settings) (transport : HttpTransport) : Daemons where
  reply := fun _ call =>
    match s.client? call.node with
    | some client => (client.call transport call.method call.params).1
    | none => .error .transport
  calls := []

/-- Connects to the daemons of all chains. -/
def connect (s : Settings) (d : Daemons) : Except Failure (List ChainNode) × Daemons :=
  connectChains 0 s.chains d

end Settings

end MergedMining
