import MergedMining.Pool.Basic

/-!
# Starting a pool

Before a chain is mined, its daemons are asked which network they follow and which script pays the reward address.
-/

namespace MergedMining

/-- Connects to the daemons of a chain. -/
def ChainNode.connect (chain : Chain) (cluster : Cluster) (rewardAddress : String) (d : Daemons) :
    Except Failure ChainNode × Cluster × Daemons :=
  match cluster.check d with
  | (.error e, cluster, d) => (.error (.fault e), cluster, d)
  | (.ok (), cluster, d) =>
    match cluster.call Node.getChainInfo d with
    | (.error e, cluster, d) => (.error (.fault e), cluster, d)
    | (.ok info, cluster, d) =>
      match Network.ofName? info.chain with
      | none => (.error (.ofValidation (.unknownNetwork info.chain)), cluster, d)
      | some network =>
        if chain.accepts network rewardAddress then
          match cluster.call (fun node => node.validateAddress rewardAddress) d with
          | (.error e, cluster, d) => (.error (.fault e), cluster, d)
          | (.ok address, cluster, d) =>
            match Hex.bytes address.script with
            | .error e => (.error (.ofEncoding e), cluster, d)
            | .ok script => (.ok ⟨chain, network, cluster, rewardAddress, script⟩, cluster, d)
        else (.error (.rewardAddress chain.name network rewardAddress), cluster, d)

/-- Connects to the daemons of several chains in turn, each given with its reward address. -/
def ChainNode.connectAll : List (Chain × Cluster × String) → Daemons → Except Failure (List ChainNode) × Daemons
  | [], d => (.ok [], d)
  | (chain, cluster, rewardAddress) :: rest, d =>
    match ChainNode.connect chain cluster rewardAddress d with
    | (.error e, _, d) => (.error e, d)
    | (.ok node, _, d) =>
      match connectAll rest d with
      | (.error e, d) => (.error e, d)
      | (.ok nodes, d) => (.ok (node :: nodes), d)

namespace Pool

variable {σ : Type}

/-- A pool in which nothing has happened yet. -/
def start (settings : PoolSettings) (chains : List ChainNode) (daemons : Daemons) (store : σ) (draws : Draws)
    (sessionName : SessionId → String) (clock : Timestamp) : Except Failure (Pool σ) :=
  match chains with
  | [] => .error .noPrimary
  | primary :: others =>
    match poolTarget settings.difficulty primary.chain.shareMultiplier with
    | .error e => .error (.ofEncoding e)
    | .ok target =>
      .ok {
        settings, primary, others, daemons, store, target, draws, sessionName, clock
        jobs := .empty
        registry := .empty
        extranonces := .default
        bans := .ofLimit settings.malformedLimit
        shares := .empty
        nextSession := 0 }

end Pool

end MergedMining
