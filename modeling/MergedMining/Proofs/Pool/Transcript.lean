import MergedMining.Proofs.Pool.Dialogue
import MergedMining.Proofs.Pool.Steady

/-!
# What is written on a connection

Every request is answered with one response, in the order in which the requests came, and nothing else is a
response (`responses_of_transcript`).  When a miner joins, the response, the difficulty and the current job come
in a row.  Whatever the pool does meanwhile, what is written and what the reply under way still owes are such a
transcript, as long as the connection can be written to (`Dialogue.transcript_of_run`).
-/

namespace MergedMining

open Stratum (Id Message)

/-! ### Transcripts -/

/-- The messages that hand out what was the current job when it was looked at. -/
inductive Handed : Option Work → List Message → Prop
  | none : Handed none []
  | some {work : Work} {notify : Stratum.Notify} (hnotify : work.notify false = .ok notify) :
      Handed (some work) [Pool.notification notify]

/-- What may be written to a miner that made these requests, each given by its id and its method, when these
were the current jobs that were looked at. -/
inductive Transcript : List (Id × String) → List (Option Work) → List Message → Prop
  | empty : Transcript [] [] []
  | passed {requests : List (Id × String)} {looked : List (Option Work)} {written : List Message} {message : Message}
      (h : Transcript requests looked written) (hnotify : message.isNotify = true) :
      Transcript requests looked (written ++ [message])
  | answered {requests : List (Id × String)} {looked : List (Option Work)} {written : List Message} {id : Id}
      {method : String} {message : Message} (h : Transcript requests looked written)
      (hid : message.responseId? = some id)
      (hgrant : method = "mining.authorize" → message ≠ .result id (.bool true)) :
      Transcript (requests ++ [(id, method)]) looked (written ++ [message])
  | joined {requests : List (Id × String)} {looked : List (Option Work)} {written : List Message} {id : Id}
      {difficulty : Float} {current : Option Work} {job : List Message} (h : Transcript requests looked written)
      (hjob : Handed current job) :
      Transcript (requests ++ [(id, "mining.authorize")]) (looked ++ [current])
        (written ++ .result id (.bool true) ::
          .notification Stratum.setDifficultyMethod (Stratum.SetDifficulty.mk difficulty).toJson :: job)

theorem Stratum.Message.responseId?_of_isNotify {message : Message} (h : message.isNotify = true) :
    message.responseId? = none := by
  cases message with
  | request => cases h
  | response => cases h
  | notification => rfl

theorem Handed.responses {current : Option Work} {job : List Message} (h : Handed current job) :
    job.filterMap Message.responseId? = [] := by
  cases h with
  | none => rfl
  | some => rfl

/-- The responses of a transcript are for the requests, one for each and in their order. -/
theorem responses_of_transcript {requests : List (Id × String)} {looked : List (Option Work)} {written : List Message}
    (h : Transcript requests looked written) : written.filterMap Message.responseId? = requests.map Prod.fst := by
  induction h with
  | empty => rfl
  | passed _ hnotify ih => simp [ih, Message.responseId?_of_isNotify hnotify]
  | answered _ hid _ ih => simp [ih, hid]
  | joined _ hjob ih =>
    rw [List.filterMap_append, ih, List.map_append]
    exact congrArg (_ ++ _ :: ·) hjob.responses

theorem Pool.IsOrderly.handed {σ : Type} {p : Pool σ} (h : p.IsOrderly) : Handed p.jobs.current p.currentJob := by
  unfold Pool.currentJob
  rcases hcurrent : p.jobs.current with _ | work
  · exact .none
  · obtain ⟨notify, hnotify⟩ := h.current work hcurrent
    simp only [hnotify]
    exact .some hnotify

namespace Dialogue

variable {σ : Type}

/-! ### What is still to be written -/

/-- What the reply under way still owes, when the current job is looked at in this pool. -/
def messagesAhead (d : Dialogue σ) (q : Pool σ) : List Message :=
  match d.reply with
  | none => []
  | some r => r.owed ++ if r.looks then q.currentJob else []

/-- The look at the current job that the reply under way still takes, when it is in this pool. -/
def looksAhead (d : Dialogue σ) (q : Pool σ) : List (Option Work) :=
  match d.reply with
  | none => []
  | some r => if r.looks then [q.jobs.current] else []

theorem messagesAhead_of_none {d : Dialogue σ} (h : d.reply = none) (q : Pool σ) : d.messagesAhead q = [] := by
  rw [messagesAhead, h]

theorem looksAhead_of_none {d : Dialogue σ} (h : d.reply = none) (q : Pool σ) : d.looksAhead q = [] := by
  rw [looksAhead, h]

/-- With what the reply under way still owes, what was written on a connection since the given messages is a
transcript, as long as the connection is not broken. -/
inductive Sound (before : List Message) (requests : List (Id × String)) (d : Dialogue σ) : Prop
  | whole {written : List Message} (hsent : d.connection.sent = written.reverse ++ before)
      (h : ∀ q : Pool σ, q.IsOrderly →
        Transcript requests (d.looked.reverse ++ d.looksAhead q) (written ++ d.messagesAhead q))
  | broken (hreply : d.reply = none) (hended : d.connection.ended = some .broken)

theorem sound_start (pool : Pool σ) (c : Connection) : (start pool c).Sound c.sent [] := by
  have hsent : (start pool c).connection.sent = [].reverse ++ c.sent := rfl
  exact .whole hsent fun _ _ => .empty

variable {before : List Message} {requests : List (Id × String)} {d d' : Dialogue σ}

/-- What was written is a transcript when no reply is under way, unless the connection broke. -/
private theorem Sound.transcript_of_none (h : d.Sound before requests) (horderly : d.pool.IsOrderly)
    (hreply : d.reply = none) (hended : d.connection.ended ≠ some .broken) :
    ∃ written, d.connection.sent = written.reverse ++ before ∧ Transcript requests d.looked.reverse written := by
  cases h with
  | @whole written hsent h =>
    have hwhole := h d.pool horderly
    rw [looksAhead_of_none hreply, messagesAhead_of_none hreply, List.append_nil, List.append_nil] at hwhole
    exact ⟨written, hsent, hwhole⟩
  | broken _ hbroken => exact absurd hbroken hended

/-- What was written is a transcript but for the rest of the reply under way. -/
private theorem Sound.transcript_of_some (h : d.Sound before requests) {r : Reply} (hreply : d.reply = some r) :
    ∃ written, d.connection.sent = written.reverse ++ before ∧ ∀ q : Pool σ, q.IsOrderly →
      Transcript requests (d.looked.reverse ++ if r.looks then [q.jobs.current] else [])
        (written ++ (r.owed ++ if r.looks then q.currentJob else [])) := by
  cases h with
  | @whole written hsent h =>
    refine ⟨written, hsent, fun q hq => ?_⟩
    have hwhole := h q hq
    rwa [looksAhead, messagesAhead, hreply] at hwhole
  | broken hnone =>
    rw [hreply] at hnone
    cases hnone

private theorem Sound.concluded {result : Connection × Pool σ} {looked : List (Option Work)} {written : List Message}
    (hsent : result.1.sent = written.reverse ++ before) (h : Transcript requests looked.reverse written) :
    (Dialogue.concluded result looked).Sound before requests := by
  refine .whole hsent fun _ _ => ?_
  rw [looksAhead_of_none rfl, messagesAhead_of_none rfl, List.append_nil, List.append_nil]
  exact h

/-- A transcript goes on with what is written, unless the connection breaks. -/
private theorem Sound.write {ms written : List Message} {reply : Option Reply}
    (hsent : d.connection.sent = written.reverse ++ before)
    (h : ∀ q : Pool σ, q.IsOrderly → Transcript requests (d.looked.reverse ++ { d with reply }.looksAhead q)
      (written ++ (ms ++ { d with reply }.messagesAhead q))) : (d.write ms reply).Sound before requests := by
  obtain ⟨done, undone, room, rfl, hwrite⟩ := d.connection.exists_write ms
  rw [Dialogue.write, hwrite]
  rcases undone with _ | ⟨next, undone⟩
  · have hsent' : done.reverse ++ d.connection.sent = (written ++ done).reverse ++ before := by
      rw [hsent, List.reverse_append, List.append_assoc]
    refine .whole hsent' fun q hq => ?_
    have hwhole := h q hq
    rw [List.append_nil, ← List.append_assoc] at hwhole
    exact hwhole
  · exact .broken rfl rfl

private theorem isOrderly_write (h : d.pool.IsOrderly) (ms : List Message) (reply : Option Reply) :
    (d.write ms reply).pool.IsOrderly := by
  unfold Dialogue.write
  split
  · exact h
  · next connection _ => exact connection.isOrderly_finish h .broken

/-! ### What a step keeps -/

/-- The request that an event is a line of, if it is. -/
def Event.request? : Event σ → Option (Id × String)
  | .line _ text => (Traffic.request? text).map fun r => (r.1, r.2.1)
  | _ => none

/-- The requests that come among events, in order. -/
def requestsOf (es : List (Event σ)) : List (Id × String) := es.filterMap Event.request?

theorem requestsOf_cons (e : Event σ) (es : List (Event σ)) :
    requestsOf (e :: es) = e.request?.toList ++ requestsOf es := by
  rw [requestsOf, List.filterMap_cons]
  cases e.request? <;> rfl

variable [Store σ] {e : Event σ} {es : List (Event σ)}

private theorem isOrderly_step (h : d.pool.IsOrderly) (hmeanwhile : ∀ q, e = .meanwhile q → q.IsOrderly)
    (hstep : d.Stepped e d') : d'.pool.IsOrderly := by
  cases hstep with
  | @asked _ _ id method params =>
    have hdispatched := h.dispatched (d.pool.dispatch_dispatched d.connection.ip d.connection.stage id method params)
    exact hdispatched
  | unasked => exact d.connection.isOrderly_handleLine h _ _
  | wrote => exact isOrderly_write h _ _
  | looked => exact isOrderly_write (d := { d with looked := d.pool.jobs.current :: d.looked }) h _ _
  | ended =>
    rw [Connection.giveReply_nil]
    split
    · exact h
    · exact d.connection.isOrderly_finish h .inOrder
  | @passed _ _ registry _ hreceive =>
    exact isOrderly_write (d := { d with pool := { d.pool with registry } })
      ⟨(h.registry.receive hreceive).2, h.current⟩ _ _
  | closed => exact d.connection.isOrderly_finish h .inOrder
  | meanwhile => exact hmeanwhile _ rfl

private theorem Sound.ask (h : d.Sound before requests) (horderly : d.pool.IsOrderly) (hidle : d.IsIdle) (now : Nat)
    (id : Id) (method : String) (params : Json) :
    (d.ask now id method params).Sound before (requests ++ [(id, method)]) := by
  obtain ⟨written, hsent, htranscript⟩ := h.transcript_of_none horderly hidle.1 (by rw [hidle.2]; nofun)
  have hreplied := d.pool.dispatch_replied d.connection.ip d.connection.stage id method params
  rcases hdispatch : d.pool.dispatch d.connection.ip d.connection.stage id method params with ⟨reaction, stage, q⟩
  rw [hdispatch] at hreplied
  simp only [Dialogue.ask, hdispatch]
  cases hreplied with
  | answered hid hgrant hstage =>
    refine .whole hsent fun _ _ => ?_
    simp only [looksAhead, messagesAhead, decide_eq_false hstage, Bool.false_eq_true, if_false, List.append_nil]
    exact .answered htranscript hid hgrant
  | joined hmethod hstage =>
    -- the current job is that of whatever pool it is looked at in
    refine .whole hsent fun q' hq' => ?_
    simp only [looksAhead, messagesAhead, decide_eq_true hstage, if_true]
    rw [hmethod]
    exact .joined htranscript hq'.handed

private theorem Sound.step_of_no_request (h : d.Sound before requests) (horderly : d.pool.IsOrderly)
    (hnone : e.request? = none) (hstep : d.Stepped e d') : d'.Sound before requests := by
  have htranscript (hidle : d.IsIdle) :=
    h.transcript_of_none horderly hidle.1 (by rw [hidle.2]; nofun)
  cases hstep with
  | asked _ hrequest =>
    rw [Event.request?, hrequest] at hnone
    cases hnone
  | @unasked now _ hidle hunread =>
    obtain ⟨written, hsent, htranscript⟩ := htranscript hidle
    rcases d.connection.handleLine_eq_of_no_request d.pool now hunread with heq | ⟨bans, heq⟩
    · rw [heq]
      exact .concluded hsent htranscript
    · rw [heq]
      exact .concluded hsent htranscript
  | wrote hreply howed =>
    obtain ⟨written, hsent, hwhole⟩ := h.transcript_of_some hreply
    refine .write hsent fun q hq => ?_
    have hahead := hwhole q hq
    rw [howed] at hahead
    exact hahead
  | looked hreply howed hlooks =>
    obtain ⟨written, hsent, hwhole⟩ := h.transcript_of_some hreply
    have hahead := hwhole d.pool horderly
    simp only [howed, hlooks, if_true, List.nil_append] at hahead
    refine Sound.write (d := { d with looked := d.pool.jobs.current :: d.looked }) hsent fun _ _ => ?_
    simpa [looksAhead, messagesAhead, howed] using hahead
  | ended hreply howed hlooks =>
    obtain ⟨written, hsent, hwhole⟩ := h.transcript_of_some hreply
    have hahead := hwhole d.pool horderly
    simp only [howed, hlooks, Bool.false_eq_true, if_false, List.append_nil] at hahead
    rw [Connection.giveReply_nil]
    split
    · exact .concluded hsent hahead
    · exact .concluded hsent hahead
  | @passed _ _ registry hidle hreceive =>
    obtain ⟨written, hsent, htranscript⟩ := htranscript hidle
    obtain ⟨hnotify, -⟩ := horderly.registry.receive hreceive
    refine Sound.write (d := { d with pool := { d.pool with registry } }) hsent fun _ _ => ?_
    simpa [looksAhead, messagesAhead] using htranscript.passed hnotify
  | closed hidle =>
    obtain ⟨written, hsent, htranscript⟩ := htranscript hidle
    exact .concluded hsent htranscript
  | meanwhile =>
    cases h with
    | whole hsent h => exact .whole hsent h
    | broken hreply hended => exact .broken hreply hended

private theorem Sound.step (h : d.Sound before requests) (horderly : d.pool.IsOrderly) (hstep : d.Stepped e d') :
    d'.Sound before (requests ++ e.request?.toList) := by
  rcases hrequest : e.request? with _ | request
  · rw [Option.toList_none, List.append_nil]
    exact h.step_of_no_request horderly hrequest hstep
  · cases hstep with
    | asked hidle hread =>
      rw [Event.request?, hread] at hrequest
      cases hrequest
      exact h.ask horderly hidle _ _ _ _
    | unasked _ hnone =>
      rw [Event.request?, hnone] at hrequest
      cases hrequest
    | _ => cases hrequest

/-! ### What a run keeps -/

private theorem sound_run? (h : d.Sound before requests) (horderly : d.pool.IsOrderly)
    (hmeanwhile : ∀ q, .meanwhile q ∈ es → q.IsOrderly) (hrun : d.run? es = some d') :
    d'.Sound before (requests ++ requestsOf es) ∧ d'.pool.IsOrderly := by
  induction es generalizing d requests with
  | nil =>
    cases hrun
    rw [requestsOf, List.filterMap_nil, List.append_nil]
    exact ⟨h, horderly⟩
  | cons e es ih =>
    obtain ⟨mid, hstep, hrest⟩ := run?_cons_eq_some.1 hrun
    have hstepped := stepped_of_step? hstep
    have hmid := isOrderly_step horderly (fun q heq => hmeanwhile q (heq ▸ List.mem_cons_self)) hstepped
    have hlater := ih (h.step horderly hstepped) hmid (fun q hq => hmeanwhile q (List.mem_cons_of_mem e hq)) hrest
    rwa [List.append_assoc, ← requestsOf_cons] at hlater

/-- As long as the connection can be written to, what is written on it is a transcript of the requests that were
taken, but for what the reply under way still owes, and that reply can be finished. -/
theorem transcript_of_run {pool : Pool σ} {c : Connection} (horderly : pool.IsOrderly)
    (hmeanwhile : ∀ q, .meanwhile q ∈ es → q.IsOrderly) (hrun : (start pool c).run? es = some d)
    (hwritable : d.connection.ended ≠ some .broken) :
    ∃ written, d.connection.sent = written.reverse ++ c.sent ∧
      Transcript (requestsOf es) (d.looked.reverse ++ d.looksAhead d.pool) (written ++ d.messagesAhead d.pool) ∧
      (written ++ d.messagesAhead d.pool).filterMap Message.responseId? = (requestsOf es).map Prod.fst ∧
      ∃ n d', d.run? (List.replicate n .reply) = some d' ∧ d'.reply = none := by
  obtain ⟨hsound, hpool⟩ := sound_run? (sound_start pool c) horderly hmeanwhile hrun
  cases hsound with
  | @whole written hsent h =>
    have htranscript := h d.pool hpool
    refine ⟨written, hsent, htranscript, responses_of_transcript htranscript, ?_⟩
    rcases hreply : d.reply with _ | r
    · exact ⟨0, d, rfl, hreply⟩
    · obtain ⟨n, looked, hrest⟩ := exists_run?_reply hreply
      exact ⟨n, _, hrest, rfl⟩
  | broken _ hended => exact absurd hended hwritable

/-! ### A miner that joins while a job is published -/

/-- A job for the sample template. -/
def sampleJob : Work := ⟨⟨0⟩, .dogecoin, sampleTemplate, none, "", ⟨[1], [2]⟩, []⟩

/-- The pool of the sample after that job was published, which waits for the miner in its mailbox. -/
def samplePublished : Pool Ledger := { samplePool with
  jobs := (Jobs.empty.publish sampleJob true).2
  registry := ⟨[0], [(0, ⟨((sampleJob.notify true).toOption.map Pool.notification).toList, Pool.mailboxCapacity⟩)]⟩ }

/-- A miner subscribes, and while it is authorized a job is published; then it asks for what the pool does not
know. -/
def sampleDialogue : List (Event Ledger) :=
  [.line 0 "\x7b\"id\":\"a\",\"method\":\"mining.subscribe\",\"params\":[]\x7d", .reply, .reply, .line 0 " ",
    .line 0 ("\x7b\"id\":\"b\",\"method\":\"mining.authorize\"," ++
      "\"params\":[\"D1111111111111111111111111111.rig\"]\x7d"),
    .reply, .meanwhile samplePublished, .reply, .reply, .reply, .pass,
    .line 0 "\x7b\"id\":7,\"method\":\"mining.ping\",\"params\":[]\x7d", .reply, .reply,
    .line 0 "\x7b\"id\":8,\"result\":true\x7d", .close]

theorem samplePublished_isOrderly : samplePublished.IsOrderly := by
  refine ⟨fun entry hentry message hmessage => ?_, fun work hwork => ?_⟩
  · cases List.mem_singleton.1 hentry
    have hwaits : message ∈ ((sampleJob.notify true).toOption.map Pool.notification).toList := hmessage
    obtain ⟨notify, -, rfl⟩ := Option.map_eq_some_iff.1 (Option.mem_toList.1 hwaits)
    simp [Pool.notification, Message.isNotify]
  · cases hwork
    exact ⟨_, Work.notify_eq_ok.2 ⟨by decide, rfl⟩⟩

theorem transcript_of_run_sample : ∃ d written,
    (start samplePool (.ofIp (.four [10, 0, 0, 1]) 600)).run? sampleDialogue = some d ∧ d.reply = none ∧
      d.connection.ended = some .inOrder ∧ d.connection.sent = written.reverse ∧ d.looked.length = 1 ∧
      Transcript [(.text "a", "mining.subscribe"), (.text "b", "mining.authorize"), (.number 7, "mining.ping")]
        d.looked.reverse written ∧
      written.filterMap Message.responseId? = [.text "a", .text "b", .number 7] := by
  have hstate : ((start samplePool (.ofIp (.four [10, 0, 0, 1]) 600)).run? sampleDialogue).map
      (fun d => (d.reply.isNone, d.connection.ended, d.looked.length)) = some (true, some .inOrder, 1) := by
    decide +kernel
  have hrequests : requestsOf sampleDialogue =
      [(.text "a", "mining.subscribe"), (.text "b", "mining.authorize"), (.number 7, "mining.ping")] := by
    decide +kernel
  have hmeanwhile : ∀ q, .meanwhile q ∈ sampleDialogue → q.IsOrderly := by
    intro q hq
    have heq : q = samplePublished := by simpa [sampleDialogue] using hq
    rw [heq]
    exact samplePublished_isOrderly
  obtain ⟨d, hrun, hd⟩ := Option.map_eq_some_iff.1 hstate
  obtain ⟨hnone, hended, hlooked⟩ :
      d.reply.isNone = true ∧ d.connection.ended = some .inOrder ∧ d.looked.length = 1 := by
    simpa using hd
  have hreply := Option.isNone_iff_eq_none.1 hnone
  obtain ⟨written, hsent, htranscript, hresponses, -⟩ :=
    transcript_of_run samplePool_isFresh.isOrderly hmeanwhile hrun (by rw [hended]; decide)
  rw [messagesAhead_of_none hreply, List.append_nil, hrequests] at htranscript hresponses
  rw [looksAhead_of_none hreply, List.append_nil] at htranscript
  exact ⟨d, written, hrun, hreply, hended, by rw [hsent]; exact List.append_nil _, hlooked, htranscript, hresponses⟩

end Dialogue

end MergedMining
