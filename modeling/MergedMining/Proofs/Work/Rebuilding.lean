import MergedMining.AuxPow
import MergedMining.Proofs.Work.Header

/-!
# One header at a time

A block can be asked for its parts in any order, and given a new header at any time.  What it holds is told by
the record of what was asked (`Holds`): the coinbase and the header are those of the latest header that was
made, and the hash is that of this header, if it was worked out since.  So no part is ever of another header
than the rest (`parts_of_one_header`).
-/

namespace MergedMining

open Stratum (Nonce Ntime)

namespace Block

/-! ### Requests -/

/-- What a block can be asked for. -/
inductive Request
  | makeHeader (extranonce : Bytes) (nonce : Nonce) (ntime : Ntime)
  | sum
  | submission
  | headerHash
  | coinbaseHash
  | header
  | hash
  | proof
  deriving DecidableEq

/-- What a block answers. -/
inductive Answer
  | made (header : Option Bytes)
  | sum (sum : Target)
  | text (text : String)
  | hash (hash : Option String)
  | proof (proof : AuxPow)

/-- The answer to a request, and the block after it. -/
def handle (b : Block) : Request → Except Fault Answer × Block
  | .makeHeader extranonce nonce ntime =>
    match b.makeHeader extranonce nonce ntime with
    | .ok made => (.ok (.made made.header), made)
    | .error e => (.error (.encoding e), b)
  | .sum =>
    match b.sum with
    | .ok (sum, summed) => (.ok (.sum sum), summed)
    | .error e => (.error (.state e), b)
  | .submission => ((b.submission.map .text).mapError .state, b)
  | .headerHash => ((b.headerHash.map .text).mapError .state, b)
  | .coinbaseHash => ((b.coinbaseHash.map .text).mapError .state, b)
  | .header => (.ok (.made b.header), b)
  | .hash => (.ok (.hash (b.hash.map Hex.encode)), b)
  | .proof => (((AuxPow.ofBlock b).map .proof).mapError .state, b)

theorem handle_makeHeader_of_ok {b made : Block} {extranonce : Bytes} {nonce : Nonce} {ntime : Ntime}
    (h : b.makeHeader extranonce nonce ntime = .ok made) :
    b.handle (.makeHeader extranonce nonce ntime) = (.ok (.made made.header), made) := by
  rw [handle, h]

theorem handle_makeHeader_of_error {b : Block} {extranonce : Bytes} {nonce : Nonce} {ntime : Ntime}
    {e : EncodingFault} (h : b.makeHeader extranonce nonce ntime = .error e) :
    b.handle (.makeHeader extranonce nonce ntime) = (.error (.encoding e), b) := by
  rw [handle, h]

theorem handle_sum_of_ok {b summed : Block} {sum : Target} (h : b.sum = .ok (sum, summed)) :
    b.handle .sum = (.ok (.sum sum), summed) := by
  rw [handle, h]

theorem handle_sum_of_error {b : Block} {e : StateFault} (h : b.sum = .error e) :
    b.handle .sum = (.error (.state e), b) := by
  rw [handle, h]

/-- A request that failed leaves the block as it was. -/
theorem handle_of_error {b : Block} {r : Request} {e : Fault} (h : (b.handle r).1 = .error e) :
    (b.handle r).2 = b := by
  cases r with
  | makeHeader extranonce nonce ntime =>
    rcases hmade : b.makeHeader extranonce nonce ntime with fault | made
    · rw [handle_makeHeader_of_error hmade]
    · rw [handle_makeHeader_of_ok hmade] at h
      cases h
  | sum =>
    rcases hsum : b.sum with fault | ⟨sum, summed⟩
    · rw [handle_sum_of_error hsum]
    · rw [handle_sum_of_ok hsum] at h
      cases h
  | _ => rfl

/-- Whether a request is about a header that was made. -/
def Request.needsHeader : Request → Bool
  | .sum | .submission | .headerHash | .coinbaseHash => true
  | _ => false

theorem handle_of_header_eq_none {b : Block} {r : Request} (hr : r.needsHeader) (h : b.header = none) :
    ∃ fault, (b.handle r).1 = .error (.state fault) := by
  cases r with
  | sum => exact ⟨.headerNotHashable, by rw [handle, sum, h]⟩
  | submission => exact ⟨.headerNotSubmittable, by rw [handle, submission, h]; rfl⟩
  | headerHash => exact ⟨.headerNotHashable, by rw [handle, headerHash, h]; rfl⟩
  | coinbaseHash => exact ⟨.coinbaseMissing, by rw [handle, coinbaseHash, h]; rfl⟩
  | _ => cases hr

theorem handle_of_header_eq_some {b : Block} {r : Request} {header : Bytes} (hr : r.needsHeader)
    (h : b.header = some header) : ∃ answer, (b.handle r).1 = .ok answer := by
  cases r with
  | sum => exact ⟨_, by rw [handle_sum_of_ok (sum_eq_ok.2 ⟨header, h, rfl, rfl⟩)]⟩
  | submission => exact ⟨_, by rw [handle, submission, h]; rfl⟩
  | headerHash => exact ⟨_, by rw [handle, headerHash, h]; rfl⟩
  | coinbaseHash => exact ⟨_, by rw [handle, coinbaseHash, h]; rfl⟩
  | _ => cases hr

theorem handle_proof_eq_ok {b : Block} {answer : Answer} : (b.handle .proof).1 = .ok answer ↔
    ∃ hash header, b.hash = some hash ∧ b.header = some header ∧
      answer = .proof ⟨b.coinbase, hash, b.work.steps, header⟩ := by
  rw [handle, Outcome.mapError_eq_ok, Outcome.map_eq_ok, AuxPow.ofBlock]
  rcases b.hash with _ | hash
  · simp
  · rcases b.header with _ | header
    · simp
    · simp [eq_comm]

/-! ### Records -/

/-- A request with its answer. -/
abbrev Entry := Request × Except Fault Answer

/-- Whether a header was made. -/
def Entry.makes : Entry → Bool
  | (.makeHeader _ _ _, .ok _) => true
  | _ => false

/-- Whether the work on a header was worked out. -/
def Entry.sums : Entry → Bool
  | (.sum, .ok _) => true
  | _ => false

/-- No header was made. -/
def MakesNone (entries : List Entry) : Prop := ∀ entry ∈ entries, entry.makes = false

/-- The header of a job for an answer to it. -/
def headerFor (work : Work) (extranonce : Bytes) (nonce : Nonce) (ntime : Ntime) : Except EncodingFault Bytes :=
  headerBytes work.template (merkleRoot work (work.coinbase.around extranonce)) nonce ntime

/-- The latest header of a record: what it was made for, and what was asked since. -/
structure IsLatest (past newer : List Entry) (extranonce : Bytes) (nonce : Nonce) (ntime : Ntime) : Prop where
  split : ∃ answer older, past = newer ++ (.makeHeader extranonce nonce ntime, .ok answer) :: older
  newer : MakesNone newer

/-- What a block of a job holds after a record of requests: nothing before the first header was made, and then
the coinbase and the header of the latest one, with its hash if it was worked out since. -/
inductive Holds (work : Work) (past : List Entry) : Block → Prop
  | nothing (hnone : MakesNone past) : Holds work past (.ofWork work)
  | latest {newer : List Entry} {extranonce header : Bytes} {nonce : Nonce} {ntime : Ntime}
      (hlatest : IsLatest past newer extranonce nonce ntime)
      (hheader : headerFor work extranonce nonce ntime = .ok header) :
      Holds work past ⟨work, work.coinbase.around extranonce, some header,
        if newer.any Entry.sums then some (scrypt header).reverse else none⟩

variable {work : Work} {past newer : List Entry} {b : Block} {entry : Entry} {extranonce : Bytes} {nonce : Nonce}
  {ntime : Ntime}

theorem MakesNone.cons (h : MakesNone past) (hentry : entry.makes = false) : MakesNone (entry :: past) := by
  intro other hother
  rcases List.mem_cons.1 hother with rfl | hother
  · exact hentry
  · exact h other hother

theorem IsLatest.cons (h : IsLatest past newer extranonce nonce ntime) (hentry : entry.makes = false) :
    IsLatest (entry :: past) (entry :: newer) extranonce nonce ntime := by
  obtain ⟨⟨answer, older, rfl⟩, hnewer⟩ := h
  exact ⟨⟨answer, older, rfl⟩, hnewer.cons hentry⟩

theorem IsLatest.made (past : List Entry) (extranonce : Bytes) (nonce : Nonce) (ntime : Ntime) (answer : Answer) :
    IsLatest ((.makeHeader extranonce nonce ntime, .ok answer) :: past) [] extranonce nonce ntime :=
  ⟨⟨answer, past, rfl⟩, fun _ hentry => absurd hentry List.not_mem_nil⟩

/-- A record with a latest header is not one without headers. -/
theorem IsLatest.not_makesNone (h : IsLatest past newer extranonce nonce ntime) : ¬ MakesNone past := by
  obtain ⟨⟨answer, older, rfl⟩, -⟩ := h
  intro hnone
  have := hnone _ (List.mem_append_right newer List.mem_cons_self)
  cases this

/-- What was asked since the latest header is all that was asked before one was made, counted from the end. -/
theorem IsLatest.newer_eq (h : IsLatest past newer extranonce nonce ntime) : newer = past.takeWhile (!·.makes) := by
  obtain ⟨⟨answer, older, rfl⟩, hnewer⟩ := h
  rw [List.takeWhile_append_of_pos fun entry hentry => by rw [hnewer entry hentry]; rfl,
    List.takeWhile_cons_of_neg (by simp [Entry.makes]), List.append_nil]

/-! ### What is kept -/

theorem makeHeader_eq (b : Block) (extranonce : Bytes) (nonce : Nonce) (ntime : Ntime) :
    b.makeHeader extranonce nonce ntime = (headerFor b.work extranonce nonce ntime).map fun header =>
      ⟨b.work, b.work.coinbase.around extranonce, some header, none⟩ := rfl

theorem Holds.work_eq (h : Holds work past b) : b.work = work := by
  cases h with
  | nothing => rfl
  | latest => rfl

/-- A request that makes no header and works nothing out changes nothing. -/
theorem Holds.cons (h : Holds work past b) (hmakes : entry.makes = false) (hsums : entry.sums = false) :
    Holds work (entry :: past) b := by
  cases h with
  | nothing hnone => exact .nothing (hnone.cons hmakes)
  | latest hlatest hheader =>
    have hholds := Holds.latest (hlatest.cons hmakes) hheader
    rwa [List.any_cons, hsums, Bool.false_or] at hholds

theorem Holds.makeHeader (h : Holds work past b) (extranonce : Bytes) (nonce : Nonce) (ntime : Ntime) :
    Holds work ((.makeHeader extranonce nonce ntime, (b.handle (.makeHeader extranonce nonce ntime)).1) :: past)
      (b.handle (.makeHeader extranonce nonce ntime)).2 := by
  have hmade := b.makeHeader_eq extranonce nonce ntime
  rw [h.work_eq] at hmade
  rcases hheader : headerFor work extranonce nonce ntime with e | header
  · rw [hheader] at hmade
    rw [handle_makeHeader_of_error hmade]
    exact h.cons rfl rfl
  · rw [hheader] at hmade
    rw [handle_makeHeader_of_ok hmade]
    exact .latest (.made past extranonce nonce ntime _) hheader

theorem Holds.sum (h : Holds work past b) : Holds work ((.sum, (b.handle .sum).1) :: past) (b.handle .sum).2 := by
  cases h with
  | nothing hnone =>
    rw [handle_sum_of_error (e := .headerNotHashable) rfl]
    exact .nothing (hnone.cons rfl)
  | @latest newer extranonce header nonce ntime hlatest hheader =>
    rw [handle_sum_of_ok (sum_eq_ok.2 ⟨header, rfl, rfl, rfl⟩)]
    have hentry : Entry.makes (.sum, .ok (.sum (Target.ofBytesBE (scrypt header).reverse))) = false := rfl
    exact .latest (hlatest.cons hentry) hheader

theorem Holds.handle (h : Holds work past b) (r : Request) :
    Holds work ((r, (b.handle r).1) :: past) (b.handle r).2 := by
  cases r with
  | makeHeader extranonce nonce ntime => exact h.makeHeader extranonce nonce ntime
  | sum => exact h.sum
  | _ => exact h.cons rfl rfl

/-- After any requests a block holds what their record tells. -/
theorem holds_serve (work : Work) (requests : List Request) :
    Holds work (Outcome.serve Block.handle (.ofWork work) requests).1
      (Outcome.serve Block.handle (.ofWork work) requests).2 :=
  Outcome.serve_induction (.nothing fun _ hentry => absurd hentry List.not_mem_nil)
    (fun _ _ r h => h.handle r) requests

/-! ### What is answered -/

theorem Holds.header_eq_none_iff (h : Holds work past b) : b.header = none ↔ MakesNone past := by
  cases h with
  | nothing hnone => exact ⟨fun _ => hnone, fun _ => rfl⟩
  | latest hlatest _ => exact ⟨nofun, fun hnone => absurd hnone hlatest.not_makesNone⟩

/-- What needs a header is refused before one was made, and answered from then on. -/
theorem Holds.refused_or_answered (h : Holds work past b) {r : Request} (hr : r.needsHeader) :
    (MakesNone past ∧ ∃ fault, (b.handle r).1 = .error (.state fault)) ∨
      (¬ MakesNone past ∧ ∃ answer, (b.handle r).1 = .ok answer) := by
  rw [← h.header_eq_none_iff]
  rcases hheader : b.header with _ | header
  · exact .inl ⟨rfl, handle_of_header_eq_none hr hheader⟩
  · exact .inr ⟨Option.some_ne_none header, handle_of_header_eq_some hr hheader⟩

theorem Holds.handle_eq_error_iff (h : Holds work past b) {r : Request} (hr : r.needsHeader) :
    (∃ fault, (b.handle r).1 = .error (.state fault)) ↔ MakesNone past := by
  rcases h.refused_or_answered hr with ⟨hnone, hrefused⟩ | ⟨hmade, answer, hanswer⟩
  · exact iff_of_true hrefused hnone
  · exact iff_of_false (by simp [hanswer]) hmade

theorem Holds.handle_eq_ok_iff (h : Holds work past b) {r : Request} (hr : r.needsHeader) :
    (∃ answer, (b.handle r).1 = .ok answer) ↔ ¬ MakesNone past := by
  rcases h.refused_or_answered hr with ⟨hnone, fault, hfault⟩ | ⟨hmade, hanswered⟩
  · exact iff_of_false (by simp [hfault]) (not_not.2 hnone)
  · exact iff_of_true hanswered hmade

/-- A proof can be had once the work on the latest header was worked out. -/
theorem Holds.proof_eq_ok_iff (h : Holds work past b) : (∃ answer, (b.handle .proof).1 = .ok answer) ↔
    ∃ newer extranonce nonce ntime, IsLatest past newer extranonce nonce ntime ∧ newer.any Entry.sums := by
  simp only [handle_proof_eq_ok]
  cases h with
  | nothing hnone =>
    constructor
    · rintro ⟨_, _, _, hhash, -⟩
      cases hhash
    · rintro ⟨_, _, _, _, hlatest, -⟩
      exact absurd hnone hlatest.not_makesNone
  | @latest newer extranonce header nonce ntime hlatest hheader =>
    constructor
    · rintro ⟨_, _, _, hhash, -⟩
      refine ⟨newer, extranonce, nonce, ntime, hlatest, ?_⟩
      by_contra hsums
      rw [if_neg hsums] at hhash
      cases hhash
    · rintro ⟨newer', _, _, _, hlatest', hsums⟩
      rw [hlatest'.newer_eq, ← hlatest.newer_eq] at hsums
      exact ⟨_, _, header, if_pos hsums, rfl, rfl⟩

/-- A block of a job that was asked for anything in any order holds the coinbase and the header of the latest
header made, and no hash but that header's.  A request that fails changes nothing; what needs a header is
refused until one was made, and a proof is given once the work on the latest header was worked out. -/
theorem parts_of_one_header (work : Work) (requests : List Request) :
    let past := (Outcome.serve Block.handle (.ofWork work) requests).1
    let b := (Outcome.serve Block.handle (.ofWork work) requests).2
    Holds work past b ∧
    (∀ r fault, (b.handle r).1 = .error fault → (b.handle r).2 = b) ∧
    (∀ r, r.needsHeader → ((∃ fault, (b.handle r).1 = .error (.state fault)) ↔ MakesNone past) ∧
      ((∃ answer, (b.handle r).1 = .ok answer) ↔ ¬ MakesNone past)) ∧
    ((∃ answer, (b.handle .proof).1 = .ok answer) ↔
      ∃ newer extranonce nonce ntime, IsLatest past newer extranonce nonce ntime ∧ newer.any Entry.sums) := by
  have h := holds_serve work requests
  exact ⟨h, fun _ _ => handle_of_error, fun _ hr => ⟨h.handle_eq_error_iff hr, h.handle_eq_ok_iff hr⟩,
    h.proof_eq_ok_iff⟩

end Block

end MergedMining
