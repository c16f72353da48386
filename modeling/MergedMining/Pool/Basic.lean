import MergedMining.Bans
import MergedMining.Daemon.Cluster
import MergedMining.Failure
import MergedMining.Jobs
import MergedMining.Registry
import MergedMining.Share
import MergedMining.Share.Buffer

/-!
# Pools

A pool mines one chain, and may merge-mine a second one.  It shares one state among all connections: the jobs,
the registered sessions, the issued extranonces, the banned addresses and the shares that wait to be stored.
-/

namespace MergedMining

/-- A chain that a pool is connected to. -/
structure ChainNode where
  chain : Chain
  network : Network
  cluster : Cluster
  rewardAddress : String
  script : Bytes

/-- What a pool is told about itself. -/
structure PoolSettings where
  name : String
  signature : Bytes
  difficulty : Float
  malformedLimit : Nat
  connectionTimeout : Nat
  maxConnections : Nat := 10000

/-- A pool; `primary` is mined, and the first of `others` merge-mined. -/
structure Pool (σ : Type) where
  settings : PoolSettings
  primary : ChainNode
  others : List ChainNode
  daemons : Daemons
  store : σ
  target : Target
  draws : Draws
  sessionName : SessionId → String
  clock : Timestamp
  jobs : Jobs
  registry : Registry
  extranonces : Extranonces
  bans : Bans
  shares : ShareBuffer
  nextSession : SessionId

namespace Pool

variable {σ : Type}

/-- All chains, in order. -/
def chains (p : Pool σ) : List ChainNode := p.primary :: p.others

/-- The chains and networks that a login needs an address for. -/
def loginChains (p : Pool σ) : List (Chain × Network) := p.chains.map fun c => (c.chain, c.network)

/-- How many bytes the coinbase keeps free for the extranonce. -/
def reserved : Nat := Extranonces.defaultOwnSize + Extranonces.defaultMinerSize

/-- Asks the daemons of the primary chain. -/
def askPrimary {α : Type} (p : Pool σ) (request : Node → Asking α) : Except Fault α × Pool σ :=
  let (answer, cluster, daemons) := p.primary.cluster.call request p.daemons
  (answer, { p with primary := { p.primary with cluster }, daemons })

/-- Asks the daemons of the merge-mined chain, if there is one. -/
def askAux {α : Type} (p : Pool σ) (request : ChainNode → Node → Asking α) :
    Option (Except Fault α) × Pool σ :=
  match p.others with
  | [] => (none, p)
  | aux :: rest =>
    let (answer, cluster, daemons) := aux.cluster.call (request aux) p.daemons
    (some answer, { p with others := { aux with cluster } :: rest, daemons })

end Pool

end MergedMining
