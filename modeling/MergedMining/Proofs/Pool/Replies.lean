import MergedMining.Proofs.Pool.Request

/-!
# What a request is answered with

Every request is answered with one response, and of all requests only an authorization that lets a miner work is
answered with more: the difficulty and the current job follow the response.  An authorization that is turned
away never reads like one that is granted (`dispatch_replied`).
-/

namespace MergedMining

open Stratum (Id Message)

/-- The id of the request that a message responds to. -/
def Stratum.Message.responseId? : Message → Option Id
  | .response id _ _ => some id
  | _ => none

/-- A change of stage lets a miner work. -/
def Stage.Joins : Stage → Stage → Prop
  | .subscribed _, .authorized _ => True
  | _, _ => False

instance (before after : Stage) : Decidable (before.Joins after) := by
  unfold Stage.Joins
  split <;> infer_instance

theorem Stage.not_joins_self (stage : Stage) : ¬ stage.Joins stage := by
  cases stage <;> exact id

namespace Pool

variable {σ : Type} {id : Id} {method : String} {stage : Stage}

/-- What is sent in reply to a request, when nothing comes between. -/
inductive Replied (id : Id) (method : String) (stage : Stage) : Reaction × Stage × Pool σ → Prop
  | answered {message : Message} {stays : Bool} {stage' : Stage} {q : Pool σ} (hid : message.responseId? = some id)
      (hgrant : method = "mining.authorize" → message ≠ .result id (.bool true)) (hstage : ¬ stage.Joins stage') :
      Replied id method stage (⟨[message], stays⟩, stage', q)
  | joined {stage' : Stage} {q : Pool σ} (hmethod : method = "mining.authorize") (hstage : stage.Joins stage') :
      Replied id method stage (⟨.result id (.bool true) :: q.difficultyMessage :: q.currentJob, true⟩, stage', q)

theorem subscribe_replied (p : Pool σ) (ip : Ip) (stage : Stage) (id : Id) (params : Json) :
    Replied id "mining.subscribe" stage (p.subscribe ip stage id params) := by
  have hsame := stage.not_joins_self
  have hmethod : "mining.subscribe" ≠ "mining.authorize" := by decide
  unfold subscribe
  by_cases hbanned : p.bans.isBanned ip = true
  · rw [if_pos hbanned]
    exact .answered rfl (absurd · hmethod) hsame
  rw [if_neg hbanned]
  rcases Stratum.Subscribe.ofJson params with e | request
  · exact .answered rfl (absurd · hmethod) hsame
  rcases stage with _ | _ | _ | _
  · dsimp only
    rcases p.extranonces.allocate p.draws with ⟨e | extranonce1, extranonces⟩
    · exact .answered rfl (absurd · hmethod) hsame
    · exact .answered rfl (absurd · hmethod) (fun hjoins => hjoins)
  · exact .answered rfl (absurd · hmethod) hsame
  · exact .answered rfl (absurd · hmethod) hsame
  · exact .answered rfl (absurd · hmethod) hsame

theorem authorize_replied (p : Pool σ) (ip : Ip) (stage : Stage) (id : Id) (params : Json) :
    Replied id "mining.authorize" stage (p.authorize ip stage id params) := by
  have hsame := stage.not_joins_self
  unfold authorize
  by_cases hbanned : p.bans.isBanned ip = true
  · rw [if_pos hbanned]
    exact .answered rfl (fun _ => nofun) hsame
  rw [if_neg hbanned]
  rcases Stratum.Authorize.ofJson params with e | request
  · exact .answered rfl (fun _ => nofun) hsame
  rcases stage with _ | subscription | _ | _
  · exact .answered rfl (fun _ => nofun) hsame
  · dsimp only
    rcases p.login request.username with e | login
    · exact .answered rfl (fun _ => nofun) hsame
    · exact .joined rfl trivial
  · exact .answered rfl (fun _ => nofun) hsame
  · exact .answered rfl (fun _ => nofun) hsame

theorem dispatch_replied [Store σ] (p : Pool σ) (ip : Ip) (stage : Stage) (id : Id) (method : String)
    (params : Json) :
    Replied id method stage (p.dispatch ip stage id method params) := by
  have hsame := stage.not_joins_self
  unfold dispatch
  by_cases hsubscribe : method = "mining.subscribe"
  · subst hsubscribe
    exact subscribe_replied p ip stage id params
  rw [if_neg hsubscribe]
  by_cases hauthorize : method = "mining.authorize"
  · subst hauthorize
    exact authorize_replied p ip stage id params
  rw [if_neg hauthorize]
  by_cases hsubmit : method = "mining.submit"
  · rw [if_pos hsubmit]
    have hsubmitted := p.submit_submitted ip stage id params
    rcases hsubmit : p.submit ip stage id params with ⟨reaction, q⟩
    rw [hsubmit] at hsubmitted
    cases hsubmitted with
    | _ => exact .answered rfl (absurd · hauthorize) hsame
  rw [if_neg hsubmit]
  split
  · exact .answered rfl (absurd · hauthorize) hsame
  · exact .answered rfl (absurd · hauthorize) hsame

end Pool

end MergedMining
