import MergedMining.Proofs.Pool.Outward
import MergedMining.Proofs.Work.Header

/-!
# What a request can do

A submission is turned away before its block is rebuilt, is a duplicate, is refused for another reason, or is
counted (`submit_submitted`).  A request of any other kind issues an extranonce, lets a connection work for a
login, or changes nothing (`dispatch_dispatched`).
-/

namespace MergedMining

open Stratum (Id Message Reason Refusal)

namespace Pool

variable {σ : Type} {p : Pool σ} {stage : Stage} {params : Json}

/-! ### Submissions -/

/-- The header of the block that a submission is for, if one can be rebuilt. -/
def handedIn? (p : Pool σ) (stage : Stage) (params : Json) : Option Bytes :=
  match stage, Stratum.Submit.ofJson params with
  | .authorized session, .ok submit =>
    match p.jobs.get? submit.jobId with
    | none => none
    | some work =>
      if submit.extranonce2.bytes.length ≠ p.extranonces.minerSize then none
      else
        match (Block.ofWork work).makeHeader (session.extranonce1.bytes ++ submit.extranonce2.bytes) submit.nonce
            submit.ntime with
        | .error _ => none
        | .ok block => block.header
  | _, _ => none

/-- What the block of a submission is rebuilt from. -/
structure Rebuilds (p : Pool σ) (stage : Stage) (params : Json) (session : Session) (submit : Stratum.Submit)
    (work : Work) (block : Block) (header : Bytes) : Prop where
  authorized : stage = .authorized session
  read : Stratum.Submit.ofJson params = .ok submit
  job : p.jobs.get? submit.jobId = some work
  size : submit.extranonce2.bytes.length = p.extranonces.minerSize
  made : (Block.ofWork work).makeHeader (session.extranonce1.bytes ++ submit.extranonce2.bytes) submit.nonce
    submit.ntime = .ok block
  header_eq : block.header = some header

theorem Rebuilds.handedIn? {session : Session} {submit : Stratum.Submit} {work : Work} {block : Block}
    {header : Bytes} (h : p.Rebuilds stage params session submit work block header) :
    p.handedIn? stage params = some header := by
  simp only [Pool.handedIn?, h.authorized, h.read, h.job, h.size, h.made, ne_eq, not_true_eq_false, if_false]
  exact h.header_eq

/-- A submission is for one block. -/
theorem Rebuilds.unique {session session' : Session} {submit submit' : Stratum.Submit} {work work' : Work}
    {block block' : Block} {header header' : Bytes} (h : p.Rebuilds stage params session submit work block header)
    (h' : p.Rebuilds stage params session' submit' work' block' header') :
    session' = session ∧ submit' = submit ∧ work' = work ∧ block' = block ∧ header' = header := by
  have hsession := h'.authorized
  rw [h.authorized] at hsession
  cases hsession
  have hsubmit := h'.read
  rw [h.read] at hsubmit
  cases hsubmit
  have hwork := h'.job
  rw [h.job] at hwork
  cases hwork
  have hblock := h'.made
  rw [h.made] at hblock
  cases hblock
  have hheader := h'.header_eq
  rw [h.header_eq] at hheader
  cases hheader
  exact ⟨rfl, rfl, rfl, rfl, rfl⟩

/-- The pool after the header of a submission was looked up among those handed in before. -/
def noting (p : Pool σ) (header : Bytes) : Pool σ := { p with jobs := (p.jobs.isDuplicate (sha256d header)).2 }

/-- The outcomes of a submission. -/
inductive Submitted (p : Pool σ) (ip : Ip) (stage : Stage) (id : Id) (params : Json) : Reaction × Pool σ → Prop
  | turnedAway {refusal : Refusal} (hnone : p.handedIn? stage params = none)
      (hcode : refusal.code ≠ Reason.duplicate.code) : Submitted p ip stage id params (.refuse id refusal, p)
  | duplicate {session : Session} {submit : Stratum.Submit} {work : Work} {block : Block} {header : Bytes}
      (h : p.Rebuilds stage params session submit work block header)
      (hseen : (p.jobs.isDuplicate (sha256d header)).1 = true) :
      Submitted p ip stage id params (.refuse id (.of .duplicate), p.noting header)
  | refused {session : Session} {submit : Stratum.Submit} {work : Work} {block : Block} {header : Bytes}
      {refusal : Refusal} (h : p.Rebuilds stage params session submit work block header)
      (hnew : (p.jobs.isDuplicate (sha256d header)).1 = false)
      (hstatus : ∀ aux sum summed, work.auxTarget = .ok aux → block.sum = .ok (sum, summed) →
        ShareStatus.ofSum sum work.template.target aux p.target = .invalid)
      (hcode : refusal.code ≠ Reason.duplicate.code) :
      Submitted p ip stage id params (.refuse id refusal, p.noting header)
  | counted {session : Session} {submit : Stratum.Submit} {work : Work} {block summed : Block} {header : Bytes}
      {sum : Target} {aux : Option Target} {q : Pool σ}
      (h : p.Rebuilds stage params session submit work block header)
      (hnew : (p.jobs.isDuplicate (sha256d header)).1 = false) (hsum : block.sum = .ok (sum, summed))
      (haux : work.auxTarget = .ok aux)
      (hstatus : ShareStatus.ofSum sum work.template.target aux p.target ≠ .invalid)
      (hq : ((p.noting header).recordShare session ip work sum).Outward q) :
      Submitted p ip stage id params (.answer (.result id (.bool true)), q)

/-- The outcomes of a check of a share whose block was rebuilt. -/
private theorem checkShare_submitted [Store σ] {ip : Ip} {id : Id} {session : Session} {submit : Stratum.Submit}
    {work : Work} {block : Block} {header : Bytes} (h : p.Rebuilds stage params session submit work block header) :
    p.Submitted ip stage id params (match p.checkShare ip session work submit with
      | (.ok _, p) => (.answer (.result id (.bool true)), p)
      | (.error refusal, p) => (.refuse id refusal, p)) := by
  have hheader : block.header.getD [] = header := by rw [h.header_eq]; rfl
  simp only [checkShare, h.made, hheader]
  rcases hdup : p.jobs.isDuplicate (sha256d header) with ⟨_ | _, jobs⟩
  · have hnoting : { p with jobs } = p.noting header := by rw [noting, hdup]
    have hnew : (p.jobs.isDuplicate (sha256d header)).1 = false := by rw [hdup]
    simp only [hnoting]
    rcases hsum : block.sum with e | ⟨sum, summed⟩
    · exact .refused h hnew (fun _ _ _ _ hs => by rw [hsum] at hs; cases hs) (by decide)
    rcases haux : work.auxTarget with e | aux
    · exact .refused h hnew (fun _ _ _ ha => by rw [haux] at ha; cases ha) (by decide)
    have hcandidate (status : ShareStatus) : ((p.noting header).recordShare session ip work sum).Outward
        (((p.noting header).recordShare session ip work sum).submitCandidate summed status session).2 :=
      submitCandidate_outward _ _ _ _
    dsimp only
    rcases hstatus : ShareStatus.ofSum sum work.template.target aux p.target with _ | _ | _ | _ | _
    · exact .refused h hnew
        (fun _ _ _ ha hs => by rw [haux] at ha; rw [hsum] at hs; cases ha; cases hs; exact hstatus) (by decide)
    -- the work that counts differs only in what is handed in after it was counted
    all_goals
      have hvalid : ShareStatus.ofSum sum work.template.target aux p.target ≠ .invalid := by
        rw [hstatus]
        decide
    · exact .counted h hnew hsum haux hvalid (.refl _)
    · exact .counted h hnew hsum haux hvalid (hcandidate .primary)
    · exact .counted h hnew hsum haux hvalid (hcandidate .aux)
    · exact .counted h hnew hsum haux hvalid (hcandidate .dual)
  · have hnoting : { p with jobs } = p.noting header := by rw [noting, hdup]
    simp only [hnoting]
    exact .duplicate h (by rw [hdup])

theorem submit_submitted [Store σ] (p : Pool σ) (ip : Ip) (stage : Stage) (id : Id) (params : Json) :
    p.Submitted ip stage id params (p.submit ip stage id params) := by
  unfold submit
  rcases stage with _ | _ | session | _
  · exact .turnedAway rfl (by decide)
  · exact .turnedAway rfl (by decide)
  · rcases hread : Stratum.Submit.ofJson params with e | submit
    · exact .turnedAway (by simp only [handedIn?, hread]) (show (20 : Int) ≠ 22 by decide)
    rcases hjob : p.jobs.get? submit.jobId with _ | work
    · simp only [hjob]
      exact .turnedAway (by simp only [handedIn?, hread, hjob]) (by decide)
    by_cases hsize : submit.extranonce2.bytes.length = p.extranonces.minerSize
    · simp only [hjob, hsize, ne_eq, not_true_eq_false, if_false]
      rcases hmade : (Block.ofWork work).makeHeader (session.extranonce1.bytes ++ submit.extranonce2.bytes)
          submit.nonce submit.ntime with e | block
      · simp only [checkShare, hmade]
        exact .turnedAway (by simp [handedIn?, hread, hjob, hsize, hmade]) (by decide)
      · obtain ⟨header, hheader⟩ := Block.exists_header hmade
        exact checkShare_submitted ⟨rfl, hread, hjob, hsize, hmade, hheader⟩
    · simp only [hjob, hsize, ne_eq, not_false_eq_true, if_true]
      exact .turnedAway (by simp [handedIn?, hread, hjob, hsize]) (by decide)
  · exact .turnedAway rfl (by decide)

/-! ### Requests -/

/-- The outcomes of a request. -/
inductive Dispatched (p : Pool σ) (ip : Ip) (stage : Stage) (id : Id) (method : String) (params : Json) :
    Reaction × Stage × Pool σ → Prop
  | answered (reaction : Reaction) (hmethod : method ≠ "mining.submit") :
      Dispatched p ip stage id method params (reaction, stage, p)
  | exhausted (reaction : Reaction) {fault : StateFault} {extranonces : Extranonces}
      (hmethod : method = "mining.subscribe")
      (hdraw : p.extranonces.allocate p.draws = (.error fault, extranonces)) :
      Dispatched p ip stage id method params (reaction, stage, { p with extranonces })
  | subscribed {request : Stratum.Subscribe} {extranonce1 : Stratum.Extranonce} {extranonces : Extranonces}
      (hmethod : method = "mining.subscribe") (hfree : p.bans.isBanned ip = false) (hstage : stage = .connected)
      (hdraw : p.extranonces.allocate p.draws = (.ok extranonce1, extranonces))
      (hread : Stratum.Subscribe.ofJson params = .ok request) :
      Dispatched p ip stage id method params
        (.answer (.result id (Stratum.SubscribeResult.ofSession (p.sessionName p.nextSession) extranonce1
          (UInt32.ofNat extranonces.minerSize)).toJson), .subscribed ⟨p.nextSession, extranonce1, request.userAgent⟩,
          { p with extranonces, nextSession := p.nextSession + 1 })
  | authorized {request : Stratum.Authorize} {subscription : Subscription} {login : Login}
      (hmethod : method = "mining.authorize") (hfree : p.bans.isBanned ip = false)
      (hstage : stage = .subscribed subscription) (hlogin : p.login request.username = .ok login)
      (hread : Stratum.Authorize.ofJson params = .ok request) :
      Dispatched p ip stage id method params
        (⟨Message.result id (.bool true) :: (p.register ⟨subscription, login⟩).difficultyMessage ::
          (p.register ⟨subscription, login⟩).currentJob, true⟩, .authorized ⟨subscription, login⟩,
          p.register ⟨subscription, login⟩)
  | submitted {reaction : Reaction} {q : Pool σ} (hmethod : method = "mining.submit")
      (h : p.Submitted ip stage id params (reaction, q)) :
      Dispatched p ip stage id method params (reaction, stage, q)

theorem subscribe_dispatched (p : Pool σ) (ip : Ip) (stage : Stage) (id : Id) (params : Json) :
    p.Dispatched ip stage id "mining.subscribe" params (p.subscribe ip stage id params) := by
  have hmethod : "mining.subscribe" ≠ "mining.submit" := by decide
  unfold subscribe
  by_cases hbanned : p.bans.isBanned ip = true
  · rw [if_pos hbanned]
    exact .answered _ hmethod
  rw [if_neg hbanned]
  rcases hread : Stratum.Subscribe.ofJson params with e | request
  · exact .answered _ hmethod
  rcases stage with _ | _ | _ | _
  · dsimp only
    rcases hdraw : p.extranonces.allocate p.draws with ⟨e | extranonce1, extranonces⟩
    · exact .exhausted _ rfl hdraw
    · exact .subscribed rfl (by simpa using hbanned) rfl hdraw hread
  · exact .answered _ hmethod
  · exact .answered _ hmethod
  · exact .answered _ hmethod

theorem authorize_dispatched (p : Pool σ) (ip : Ip) (stage : Stage) (id : Id) (params : Json) :
    p.Dispatched ip stage id "mining.authorize" params (p.authorize ip stage id params) := by
  have hmethod : "mining.authorize" ≠ "mining.submit" := by decide
  unfold authorize
  by_cases hbanned : p.bans.isBanned ip = true
  · rw [if_pos hbanned]
    exact .answered _ hmethod
  rw [if_neg hbanned]
  rcases hread : Stratum.Authorize.ofJson params with e | request
  · exact .answered _ hmethod
  rcases stage with _ | subscription | _ | _
  · exact .answered _ hmethod
  · dsimp only
    rcases hlogin : p.login request.username with e | login
    · exact .answered _ hmethod
    · exact .authorized rfl (by simpa using hbanned) rfl hlogin hread
  · exact .answered _ hmethod
  · exact .answered _ hmethod

theorem dispatch_dispatched [Store σ] (p : Pool σ) (ip : Ip) (stage : Stage) (id : Id) (method : String)
    (params : Json) : p.Dispatched ip stage id method params (p.dispatch ip stage id method params) := by
  unfold dispatch
  by_cases hsubscribe : method = "mining.subscribe"
  · subst hsubscribe
    exact subscribe_dispatched p ip stage id params
  rw [if_neg hsubscribe]
  by_cases hauthorize : method = "mining.authorize"
  · subst hauthorize
    exact authorize_dispatched p ip stage id params
  rw [if_neg hauthorize]
  by_cases hsubmit : method = "mining.submit"
  · rw [if_pos hsubmit]
    exact .submitted hsubmit (submit_submitted p ip stage id params)
  rw [if_neg hsubmit]
  split
  · exact .answered _ hsubmit
  · exact .answered _ hsubmit

end Pool

end MergedMining
