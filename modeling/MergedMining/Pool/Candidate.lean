import MergedMining.AuxPow
import MergedMining.Pool.Basic

/-!
# Counting work and handing in blocks

Work that is a share is counted for its miner.  Work that solves a block is handed in to the daemons of every
chain that it solves, and every accepted block is recorded.
-/

namespace MergedMining

namespace Pool

variable {σ : Type}

/-- Counts a share. -/
def recordShare (p : Pool σ) (session : Session) (ip : Ip) (work : Work) (sum : Target) : Pool σ :=
  { p with shares := p.shares.push {
      poolId := p.settings.name
      height := work.height
      miner := session.login.miner
      worker := session.login.rig
      userAgent := session.userAgent
      difficulty := creditedDifficulty sum work.chain.shareMultiplier
      networkDifficulty := work.template.networkDifficulty work.chain
      ip := ip.toText
      created := p.clock } }

/-- A block that was just found. -/
def foundBlock (p : Pool σ) (session : Session) (status : ShareStatus) (chain : Chain) (height : UInt64)
    (networkDifficulty : Float) (confirmation hash : String) : FoundBlock where
  id := 0
  poolId := p.settings.name
  chain := chain.name
  height
  networkDifficulty
  status := .pending
  kind := status.name
  progress := 0
  effort := 0
  confirmation
  miner := session.login.miner
  reward := 0
  hash
  created := p.clock

/-- The record of an accepted merge-mined block. -/
def auxRecord (p : Pool σ) (session : Session) (status : ShareStatus) (chain : Chain) (block : AuxBlock) :
    Except EncodingFault FoundBlock := do
  let networkDifficulty ← block.networkDifficulty chain
  let confirmation ← Hex.reversePairs block.coinbaseHash
  return p.foundBlock session status chain block.height networkDifficulty confirmation block.hash

/-- The record of an accepted block of the primary chain. -/
def primaryRecord (p : Pool σ) (session : Session) (status : ShareStatus) (block : Block) :
    Except StateFault FoundBlock := do
  let confirmation ← block.coinbaseHash
  let hash ← block.headerHash
  return p.foundBlock session status p.primary.chain block.work.height
    (block.work.template.networkDifficulty p.primary.chain) confirmation hash

/-- Hands in the proof for a merge-mined block. -/
def submitAux (p : Pool σ) (block : Block) (status : ShareStatus) (session : Session) :
    Except Failure FoundBlock × Pool σ :=
  match p.others with
  | [] => (.error .noAuxChain, p)
  | aux :: _ =>
    match block.work.aux with
    | none => (.error (.noAuxBlock block.work.jobId), p)
    | some auxBlock =>
      match AuxPow.ofBlock block with
      | .error e => (.error (.ofState e), p)
      | .ok proof =>
        match p.askAux fun _ node => node.submitAuxBlock auxBlock.hash proof.toText with
        | (none, p) => (.error .noAuxChain, p)
        | (some (.error e), p) => (.error (.fault e), p)
        | (some (.ok ()), p) => ((p.auxRecord session status aux.chain auxBlock).mapError .ofEncoding, p)

/-- Hands in a block of the primary chain. -/
def submitPrimary (p : Pool σ) (block : Block) (status : ShareStatus) (session : Session) :
    Except Failure FoundBlock × Pool σ :=
  match block.submission with
  | .error e => (.error (.ofState e), p)
  | .ok submission =>
    match p.askPrimary fun node => node.submitBlock submission with
    | (.error e, p) => (.error (.fault e), p)
    | (.ok (), p) => ((p.primaryRecord session status block).mapError .ofState, p)

/-- Records an accepted block; a store that fails is not asked again. -/
def recordBlock [Store σ] (p : Pool σ) (block : FoundBlock) : Pool σ :=
  { p with store := (Store.insertBlock p.store block).2 }

/-- Records what a submission brought; says what was accepted on top of `accepted`. -/
def settleSubmission [Store σ] (accepted solved : ShareStatus) (r : Except Failure FoundBlock × Pool σ) :
    ShareStatus × Pool σ :=
  match r with
  | (.ok found, p) => (accepted.combine solved, p.recordBlock found)
  | (.error _, p) => (accepted, p)

/-- Hands in a block to every chain that it solves, the merge-mined one first; says what was accepted. -/
def submitCandidate [Store σ] (p : Pool σ) (block : Block) (status : ShareStatus) (session : Session) :
    ShareStatus × Pool σ :=
  let (accepted, p) :=
    if status.solvesAux then settleSubmission .valid .aux (p.submitAux block status session) else (.valid, p)
  if status.solvesPrimary then settleSubmission accepted .primary (p.submitPrimary block status session)
  else (accepted, p)

end Pool

end MergedMining
