import MergedMining.Daemon.Recovery
import MergedMining.Pool.Connection

/-!
# A pool at work

A service is a pool with its connections and its periodic tasks: new work, the storing of shares, and the
recovery of the daemons.  Time passes in whole seconds.  After every event the mailboxes are emptied and the
recovery tasks are brought in step with the daemons.
-/

namespace MergedMining

/-- The periodic tasks of a pool. -/
inductive PoolTask
  | generator
  | flusher
  | recovery (chain : Nat)
  deriving Repr, DecidableEq

/-- A pool with its connections, by name, and its tasks. -/
structure Service (σ : Type) where
  pool : Pool σ
  connections : List (String × Connection)
  timers : Timers PoolTask
  recoveryPeriods : List Nat
  notices : Nat
  now : Nat
  cancelled : Bool

namespace Service

variable {σ : Type}

/-- A pool that nobody is connected to. -/
def ofPool (pool : Pool σ) (recoveryPeriods : List Nat) : Service σ :=
  ⟨pool, [], [], recoveryPeriods, 0, 0, false⟩

/-- The connection of a name. -/
def connection? (s : Service σ) (name : String) : Option Connection := s.connections.lookup name

/-- Does something with every connection in turn. -/
def eachOf (act : Connection → Pool σ → Connection × Pool σ) :
    List (String × Connection) → Pool σ → List (String × Connection) × Pool σ
  | [], p => ([], p)
  | (name, c) :: rest, p =>
    let (c, p) := act c p
    let (rest, p) := eachOf act rest p
    ((name, c) :: rest, p)

/-- Does something with every connection in turn. -/
def each (s : Service σ) (act : Connection → Pool σ → Connection × Pool σ) : Service σ :=
  let (connections, pool) := eachOf act s.connections s.pool
  { s with connections, pool }

/-- Does something with the connection of a name. -/
def withConnection (s : Service σ) (name : String) (act : Connection → Pool σ → Connection × Pool σ) : Service σ :=
  match s.connection? name with
  | none => s
  | some c =>
    let (c, pool) := act c s.pool
    { s with pool, connections := s.connections.map fun (n, old) => (n, if n = name then c else old) }

/-- Brings the recovery tasks of some chains in step with their daemons. -/
def scheduleFrom (now : Nat) (index : Nat) :
    List ChainNode → List Nat → Timers PoolTask → Timers PoolTask
  | [], _, timers => timers
  | c :: cs, periods, timers =>
    scheduleFrom now (index + 1) cs periods.tail
      (c.cluster.schedule now (periods.headD 60) (.recovery index) timers)

/-- Ends the recovery of all daemons. -/
def stopRecovery (p : Pool σ) : Pool σ :=
  { p with
    primary := { p.primary with cluster := p.primary.cluster.cancel }
    others := p.others.map fun c => { c with cluster := c.cluster.cancel } }

/-- Empties the mailboxes, and brings the recovery tasks in step. -/
def settle (s : Service σ) : Service σ :=
  let s := s.each Connection.deliver
  let s := if s.cancelled then { s with pool := stopRecovery s.pool } else s
  { s with timers := scheduleFrom s.now 0 s.pool.chains s.recoveryPeriods s.timers }

/-- A miner connects; a connection of the same name is forgotten. -/
def connect (s : Service σ) (name : String) (ip : Ip) : Service σ :=
  let c := Connection.ofIp ip (s.now + s.pool.settings.connectionTimeout)
  let others := s.connections.filter fun entry => entry.1 ≠ name
  let s := { s with connections := others ++ [(name, c)] }
  if s.cancelled then s.withConnection name Connection.cancel else s

/-- How many connections are being served. -/
def served (s : Service σ) : Nat := s.connections.countP fun entry => entry.2.ended.isNone

/-- A miner connects, unless as many are being served as the pool may serve; says whether it did. -/
def accept (s : Service σ) (name : String) (ip : Ip) : Bool × Service σ :=
  if s.served < s.pool.settings.maxConnections then (true, s.connect name ip) else (false, s)

/-- A miner sends bytes. -/
def receive [Store σ] (s : Service σ) (name : String) (bytes : Bytes) : Service σ :=
  (s.withConnection name fun c p => c.receive p s.now bytes).settle

/-- A miner stops sending. -/
def endOfStream [Store σ] (s : Service σ) (name : String) : Service σ :=
  (s.withConnection name fun c p => c.endOfStream p s.now).settle

/-- A miner vanishes: nothing can be written to it any more, and its connection is forgotten. -/
def vanish [Store σ] (s : Service σ) (name : String) : Service σ :=
  let s := s.withConnection name fun c p => { c with room := some 0 }.endOfStream p s.now
  { s with connections := s.connections.filter fun entry => entry.1 ≠ name }.settle

/-- Builds and publishes a job from fresh templates. -/
def refresh (s : Service σ) (clean : Bool) : Except Failure Work × Service σ :=
  let (result, pool) := s.pool.refresh clean
  (result, { s with pool }.settle)

/-- Stores the waiting shares. -/
def flush [Store σ] (s : Service σ) : ShareBuffer.FlushResult × Service σ :=
  let (result, shares, store) := s.pool.shares.flush s.pool.store
  (result, { s with pool := { s.pool with shares, store } })

/-- Lets the generator take up notices of new blocks. -/
def takeNotices : Nat → Service σ → Service σ
  | 0, s => { s with notices := 0 }
  | n + 1, s => takeNotices n (s.refresh true).2

/-- Starts a periodic task, unless the pool has stopped. -/
def start (s : Service σ) (task : PoolTask) (period : Nat) : Service σ :=
  if s.cancelled then s
  else
    let s := { s with timers := s.timers.start s.now period task }
    if task = .generator then takeNotices s.notices s else s

/-- A daemon announces a new block. -/
def notice (s : Service σ) : Service σ :=
  if s.timers.isRunning .generator then (s.refresh true).2 else { s with notices := s.notices + 1 }

/-- One look of a recovery task at the first node of a chain. -/
def recover (p : Pool σ) : Nat → Pool σ
  | 0 =>
    let (cluster, daemons) := p.primary.cluster.recover p.daemons
    { p with primary := { p.primary with cluster }, daemons }
  | index + 1 =>
    match p.others[index]? with
    | none => p
    | some c =>
      let (cluster, daemons) := c.cluster.recover p.daemons
      { p with others := p.others.set index { c with cluster }, daemons }

/-- Does what a task does when it rings. -/
def run [Store σ] (s : Service σ) : PoolTask → Service σ
  | .generator => (s.refresh false).2
  | .flusher => s.flush.2
  | .recovery index => { s with pool := recover s.pool index }

/-- A task rings. -/
def ring [Store σ] (s : Service σ) (task : PoolTask) : Service σ :=
  if s.timers.isRunning task then ({ s with timers := s.timers.rearm task }.run task).settle else s

/-- One second passes. -/
def second [Store σ] (s : Service σ) : Service σ :=
  let s := { s with now := s.now + 1 }
  let s := (s.timers.ringing s.now).foldl ring s
  (s.each fun c p => c.passTime p s.now).settle

/-- Time passes. -/
def advance [Store σ] : Nat → Service σ → Service σ
  | 0, s => s
  | n + 1, s => advance n s.second

/-- The pool stops: the connections end, and the flusher stores what is left. -/
def cancel [Store σ] (s : Service σ) : Service σ :=
  let s := s.each Connection.cancel
  let s := if s.timers.isRunning .flusher then s.flush.2 else s
  { s with cancelled := true, timers := [] }.settle

end Service

end MergedMining
