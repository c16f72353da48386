import MergedMining.Pool.Candidate
import MergedMining.Pool.Refresh
import MergedMining.Stratum.Params

/-!
# Requests of miners

A miner subscribes, authorizes and submits work.  Each request is answered with one response; an authorization
is followed by the difficulty and the current job.  A request may end the connection.
-/

namespace MergedMining

open Stratum (Id Message Reason Refusal)

/-- What a request leads to: the messages to be sent, and whether the connection stays open. -/
structure Reaction where
  messages : List Message
  stays : Bool

namespace Reaction

/-- One response. -/
def answer (m : Message) : Reaction := ⟨[m], true⟩

/-- A refusal. -/
def refuse (id : Id) (refusal : Refusal) : Reaction := answer (.refusal id refusal)

/-- A refusal with a text of its own. -/
def refuseOther (id : Id) (text : String) : Reaction := refuse id (.withText .other text)

/-- The refusal of parameters. -/
def refuseParams (id : Id) (fault : Stratum.ParamFault) : Reaction :=
  refuseOther id s!"Invalid params: {fault.message}"

/-- The same messages, and the connection is closed. -/
def closing (r : Reaction) : Reaction := { r with stays := false }

end Reaction

namespace Pool

variable {σ : Type}

/-- Gives a connection an extranonce. -/
def subscribe (p : Pool σ) (ip : Ip) (stage : Stage) (id : Id) (params : Json) : Reaction × Stage × Pool σ :=
  if p.bans.isBanned ip then ((Reaction.refuseOther id "Banned").closing, stage, p)
  else
    match Stratum.Subscribe.ofJson params with
    | .error e => (.refuseParams id e, stage, p)
    | .ok request =>
      match stage with
      | .connected =>
        match p.extranonces.allocate p.draws with
        | (.error _, extranonces) =>
          ((Reaction.refuseOther id "Server full").closing, stage, { p with extranonces })
        | (.ok extranonce1, extranonces) =>
          let session := p.nextSession
          let result := Stratum.SubscribeResult.ofSession (p.sessionName session) extranonce1
            (UInt32.ofNat extranonces.minerSize)
          (.answer (.result id result.toJson), (stage.subscribe ⟨session, extranonce1, request.userAgent⟩).2,
            { p with extranonces, nextSession := session + 1 })
      | _ => (.refuseOther id "Already subscribed", stage, p)

/-- Reads a login that has an address for every chain. -/
def login (p : Pool σ) (username : String) : Except ValidationFault Login := do
  let login ← Login.parse username
  login.check p.loginChains
  return login

/-- How many messages may wait for one miner. -/
def mailboxCapacity : Nat := 64

/-- Registers a session. -/
def register (p : Pool σ) (session : Session) : Pool σ :=
  { p with registry := p.registry.insert session.id mailboxCapacity }

/-- The message that sets the difficulty. -/
def difficultyMessage (p : Pool σ) : Message :=
  .notification Stratum.setDifficultyMethod (Stratum.SetDifficulty.mk p.settings.difficulty).toJson

/-- The message that hands out the current job, when there is one. -/
def currentJob (p : Pool σ) : List Message :=
  match p.jobs.current with
  | none => []
  | some work =>
    match work.notify false with
    | .error _ => []
    | .ok notify => [notification notify]

/-- Lets a connection work for a login. -/
def authorize (p : Pool σ) (ip : Ip) (stage : Stage) (id : Id) (params : Json) : Reaction × Stage × Pool σ :=
  if p.bans.isBanned ip then ((Reaction.refuseOther id "Banned").closing, stage, p)
  else
    match Stratum.Authorize.ofJson params with
    | .error e => (.refuseParams id e, stage, p)
    | .ok request =>
      match stage with
      | .authorized _ => (.refuseOther id "Already authorized", stage, p)
      | .connected => (.refuse id (.of .notSubscribed), stage, p)
      | .disconnected => (.refuse id (.of .notSubscribed), stage, p)
      | .subscribed subscription =>
        match p.login request.username with
        | .error e =>
          let refusal := Refusal.withText .unauthorized (Fault.validation e).message
          (.answer (.response id (some (.bool false)) (some refusal)), stage, p)
        | .ok login =>
          let session : Session := ⟨subscription, login⟩
          let p := p.register session
          (⟨Message.result id (.bool true) :: p.difficultyMessage :: p.currentJob, true⟩,
            (stage.authorize login).2, p)

/-- Checks a proof of work for a job, counts it and hands in what it solves. -/
def checkShare [Store σ] (p : Pool σ) (ip : Ip) (session : Session) (work : Work) (submit : Stratum.Submit) :
    Except Refusal ShareStatus × Pool σ :=
  let internal := Refusal.withText .other "Internal error"
  let extranonce := session.extranonce1.bytes ++ submit.extranonce2.bytes
  match (Block.ofWork work).makeHeader extranonce submit.nonce submit.ntime with
  | .error _ => (.error internal, p)
  | .ok block =>
    match p.jobs.isDuplicate (sha256d (block.header.getD [])) with
    | (true, jobs) => (.error (.of .duplicate), { p with jobs })
    | (false, jobs) =>
      let p := { p with jobs }
      match block.sum with
      | .error _ => (.error internal, p)
      | .ok (sum, block) =>
        match work.auxTarget with
        | .error _ => (.error internal, p)
        | .ok auxTarget =>
          match ShareStatus.ofSum sum work.template.target auxTarget p.target with
          | .invalid => (.error (.of .lowDifficulty), p)
          | status =>
            let p := p.recordShare session ip work sum
            if status.isCandidate then (.ok status, (p.submitCandidate block status session).2)
            else (.ok status, p)

/-- Takes a proof of work. -/
def submit [Store σ] (p : Pool σ) (ip : Ip) (stage : Stage) (id : Id) (params : Json) : Reaction × Pool σ :=
  match stage with
  | .subscribed _ => (.refuse id (.of .unauthorized), p)
  | .connected => (.refuse id (.of .notSubscribed), p)
  | .disconnected => (.refuse id (.of .notSubscribed), p)
  | .authorized session =>
    match Stratum.Submit.ofJson params with
    | .error e => (.refuseParams id e, p)
    | .ok submit =>
      match p.jobs.get? submit.jobId with
      | none => (.refuse id (.of .stale), p)
      | some work =>
        if submit.extranonce2.bytes.length ≠ p.extranonces.minerSize then
          (.refuseOther id "Incorrect size of extranonce2", p)
        else
          match p.checkShare ip session work submit with
          | (.ok _, p) => (.answer (.result id (.bool true)), p)
          | (.error refusal, p) => (.refuse id refusal, p)

/-- Handles one request. -/
def dispatch [Store σ] (p : Pool σ) (ip : Ip) (stage : Stage) (id : Id) (method : String) (params : Json) :
    Reaction × Stage × Pool σ :=
  if method = "mining.subscribe" then p.subscribe ip stage id params
  else if method = "mining.authorize" then p.authorize ip stage id params
  else if method = "mining.submit" then
    let (reaction, p) := p.submit ip stage id params
    (reaction, stage, p)
  else if method = "mining.multi_version" ∨ method = "mining.extranonce.subscribe" then
    (.answer (.result id (.bool true)), stage, p)
  else (.refuseOther id "Unknown method", stage, p)

end Pool

end MergedMining
