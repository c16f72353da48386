import MergedMining.Proofs.Pool.History
import MergedMining.Proofs.Pool.Steady

/-!
# No two miners search the same space

What was issued stays issued, and a connection subscribes with what was not issued before it.  So no two
connections of a pool ever get the same extranonce, whether they are still open or not, and since the coinbases
of a job differ only between its two halves, no coinbase of one is a coinbase of the other
(`coinbase_ne_of_subscriptions`).
-/

namespace MergedMining

open Stratum (Extranonce Nonce Ntime)

namespace Traffic

variable {σ : Type} [Store σ] {t : Traffic σ}

/-! ### Different extranonces -/

/-- What is issued at a later event is not what was issued at an earlier one. -/
private theorem extranonce_ne_of_later {e e' : Event} {place place' : Nat} {subscription subscription' : Subscription}
    (h : t.Subscribes e place subscription) (between : List Event)
    (h' : ((t.step e).run between).Subscribes e' place' subscription') :
    subscription.extranonce1.bytes ≠ subscription'.extranonce1.bytes := by
  have hissued : subscription.extranonce1.bytes ∈ (t.step e).pool.extranonces.issued := by
    rw [(Extranonces.allocate_eq_ok h.drawn).2]
    exact List.mem_cons_self
  have hnew := (Extranonces.allocate_eq_ok h'.drawn).1
  intro heq
  exact hnew (heq ▸ (proceeds_run _ between).extranonces.issued hissued)

private theorem place_of_subscribes {e : Event} {place place' : Nat} {subscription subscription' : Subscription}
    (h : t.Subscribes e place subscription) (h' : t.Subscribes e place' subscription') : place = place' := by
  obtain ⟨_, _, _, _, ⟨⟨_, _, rfl, -⟩, -, -⟩, -⟩ := h.answered
  obtain ⟨_, _, _, _, ⟨⟨_, _, heq, -⟩, -, -⟩, -⟩ := h'.answered
  cases heq
  rfl

private theorem extranonce_ne_of_append {before between after after' : List Event} {e e' : Event} {place place' : Nat}
    {subscription subscription' : Subscription} (hsplit : e :: after = between ++ e' :: after')
    (h : (t.run before).Subscribes e place subscription)
    (h' : (t.run (before ++ between)).Subscribes e' place' subscription') (hne : place ≠ place') :
    subscription.extranonce1.bytes ≠ subscription'.extranonce1.bytes := by
  rcases between with _ | ⟨_, between⟩
  · cases hsplit
    rw [List.append_nil] at h'
    exact absurd (place_of_subscribes h h') hne
  · cases hsplit
    rw [run_append] at h'
    exact extranonce_ne_of_later h between h'

/-- Two connections were given different extranonces. -/
theorem HasSubscribed.extranonce_ne {es : List Event} {place place' : Nat} {subscription subscription' : Subscription}
    (h : t.HasSubscribed es place subscription) (h' : t.HasSubscribed es place' subscription')
    (hne : place ≠ place') :
    subscription.extranonce1.bytes ≠ subscription'.extranonce1.bytes := by
  obtain ⟨before, e, after, rfl, h⟩ := h
  obtain ⟨before', e', after', hsplit, h'⟩ := h'
  -- one of the two events came first, for they are for different places
  rcases List.append_eq_append_iff.1 hsplit with ⟨between, rfl, hrest⟩ | ⟨between, rfl, hrest⟩
  · exact extranonce_ne_of_append hrest h h' hne
  · exact (extranonce_ne_of_append hrest h' h hne.symm).symm

/-- At some moment of a run the connection at a place is subscribed. -/
def Held (t : Traffic σ) (es : List Event) (place : Nat) (subscription : Subscription) : Prop :=
  ∃ before after c, es = before ++ after ∧ (t.run before).connections[place]? = some c ∧
    c.stage.subscription? = some subscription

theorem Held.hasSubscribed {p : Pool σ} {es : List Event} {place : Nat} {subscription : Subscription}
    (h : (ofPool p).Held es place subscription) : (ofPool p).HasSubscribed es place subscription := by
  obtain ⟨before, after, c, rfl, hc, hstage⟩ := h
  exact ((explained_run p before hc).hasSubscribed hstage).append after

end Traffic

/-! ### Different coinbases -/

theorem Coinbase.around_ne {c : Coinbase} {own own' miner miner' : Bytes} (hlen : own.length = own'.length)
    (hne : own ≠ own') : c.around (own ++ miner) ≠ c.around (own' ++ miner') := by
  intro heq
  have hextranonces : c.initial ++ (own ++ (miner ++ c.final)) = c.initial ++ (own' ++ (miner' ++ c.final)) := by
    simpa only [Coinbase.around, List.append_assoc] using heq
  exact hne (List.append_inj (List.append_cancel_left hextranonces) hlen).1

namespace Traffic

variable {σ : Type} [Store σ]

/-- No extranonce is issued twice, each has the size that is asked for, and an allocation that is in vain made
no draw that had not been issued before, and issues nothing.  So whatever job two connections work on, at
whatever moments they are subscribed, their coinbases differ. -/
theorem coinbase_ne_of_subscriptions :
    (∀ {ownSize minerSize : Nat} {e : Extranonces} {draws : Draws}, Extranonces.ofSizes ownSize minerSize = .ok e →
      (∀ k size, (draws k size).length = size) →
      (∀ i x, e.answer draws i = .ok x → x.bytes.length = ownSize) ∧
      (∀ i j x y, i ≠ j → e.answer draws i = .ok x → e.answer draws j = .ok y → x ≠ y) ∧
      ∀ n fault, e.answer draws n = .error fault →
        (∀ k < Extranonces.maxDraws, ∃ i < n, e.answer draws i = .ok ⟨(e.after draws n).upcoming draws k⟩) ∧
          (e.after draws (n + 1)).issued = (e.after draws n).issued) ∧
    ∀ {p : Pool σ} {es : List Event} {place place' : Nat} {subscription subscription' : Subscription} {work : Work}
      {extranonce2 extranonce2' : Bytes} {nonce nonce' : Nonce} {ntime ntime' : Ntime} {block block' : Block},
      (∀ k size, (p.draws k size).length = size) → place ≠ place' →
      (ofPool p).Held es place subscription → (ofPool p).Held es place' subscription' →
      (Block.ofWork work).makeHeader (subscription.extranonce1.bytes ++ extranonce2) nonce ntime = .ok block →
      (Block.ofWork work).makeHeader (subscription'.extranonce1.bytes ++ extranonce2') nonce' ntime' = .ok block' →
      block.coinbase ≠ block'.coinbase := by
  constructor
  · intro ownSize minerSize e draws hsizes hdraws
    obtain ⟨hown, hissued⟩ : e.ownSize = ownSize ∧ e.issued = [] := by
      obtain ⟨_, -, h⟩ := Outcome.bind_eq_ok.1 hsizes
      obtain ⟨_, -, h⟩ := Outcome.bind_eq_ok.1 h
      cases h
      exact ⟨rfl, rfl⟩
    refine ⟨fun i x hx => ?_, fun i j x y hne hx hy => ?_, fun n fault hfault => ?_⟩
    · rw [← hown, ← Extranonces.ownSize_after draws e i]
      exact Extranonces.allocate_length hdraws ((Extranonces.allocate_after draws e i).trans (by rw [hx]))
    · rcases Nat.lt_or_gt_of_ne hne with hlt | hlt
      · exact Extranonces.answer_ne_answer hlt hx hy
      · exact (Extranonces.answer_ne_answer hlt hy hx).symm
    · obtain ⟨hdrawn, hsame⟩ := Extranonces.issued_of_answer_error hfault
      refine ⟨fun k hk => ?_, hsame⟩
      rcases Extranonces.mem_issued_after.1 (hdrawn k hk) with hstart | hanswered
      · rw [hissued] at hstart
        cases hstart
      · exact hanswered
  · intro p es place place' subscription subscription' work extranonce2 extranonce2' nonce nonce' ntime ntime' block
      block' hdraws hne hheld hheld' hmade hmade'
    have hlen := hheld.hasSubscribed.length hdraws
    have hlen' := hheld'.hasSubscribed.length hdraws
    have hdifferent := hheld.hasSubscribed.extranonce_ne hheld'.hasSubscribed hne
    obtain ⟨_, _, -, -, rfl⟩ := Block.makeHeader_eq_ok.1 hmade
    obtain ⟨_, _, -, -, rfl⟩ := Block.makeHeader_eq_ok.1 hmade'
    exact Coinbase.around_ne (hlen.trans hlen'.symm) hdifferent

end Traffic

/-! ### A pool with two miners -/

/-- The pool of the sample with draws that are counted up. -/
def countingPool : Pool Ledger := { samplePool with draws := fun k size => Bytes.ofNatLE size k }

/-- Two miners subscribe, and the first one leaves between. -/
def sampleSubscriptions : List Traffic.Event :=
  [.connect (.four [10, 0, 0, 1]) 600, .connect (.four [10, 0, 0, 2]) 600,
    .line 0 0 "\x7b\"id\":\"a\",\"method\":\"mining.subscribe\",\"params\":[]\x7d", .finish 0 .inOrder,
    .line 1 0 "\x7b\"id\":\"a\",\"method\":\"mining.subscribe\",\"params\":[]\x7d"]

namespace Traffic

private theorem held_sample (n : Nat) {place : Nat} {subscription : Subscription}
    (h : (((ofPool countingPool).run (sampleSubscriptions.take n)).connections[place]?).bind (·.stage.subscription?) =
      some subscription) : (ofPool countingPool).Held sampleSubscriptions place subscription := by
  obtain ⟨c, hc, hstage⟩ := Option.bind_eq_some_iff.1 h
  exact ⟨_, sampleSubscriptions.drop n, c, (List.take_append_drop n _).symm, hc, hstage⟩

/-- Constant draws are issued once, and draws that are counted up keep two miners apart. -/
theorem coinbase_ne_of_subscriptions_sample :
    (∃ x y fault, Extranonces.ofSizes 4 4 = .ok .default ∧ (∀ k size, (countingPool.draws k size).length = size) ∧
      Extranonces.default.answer countingPool.draws 0 = .ok x ∧ x.bytes.length = 4 ∧
      Extranonces.default.answer countingPool.draws 1 = .ok y ∧ x ≠ y ∧
      Extranonces.default.answer samplePool.draws 1 = .error fault ∧
      ∀ k < Extranonces.maxDraws, ∃ i < 1, Extranonces.default.answer samplePool.draws i =
        .ok ⟨(Extranonces.default.after samplePool.draws 1).upcoming samplePool.draws k⟩) ∧
    ∃ work block block', (Block.ofWork work).makeHeader ([0, 0, 0, 0] ++ [1, 2, 3, 4]) ⟨0⟩ ⟨0⟩ = .ok block ∧
      (Block.ofWork work).makeHeader ([1, 0, 0, 0] ++ [1, 2, 3, 4]) ⟨0⟩ ⟨0⟩ = .ok block' ∧
      (ofPool countingPool).Held sampleSubscriptions 0 ⟨0, ⟨[0, 0, 0, 0]⟩, ""⟩ ∧
      (ofPool countingPool).Held sampleSubscriptions 1 ⟨1, ⟨[1, 0, 0, 0]⟩, ""⟩ ∧
        block.coinbase ≠ block'.coinbase := by
  have hcounting : ∀ k size, (countingPool.draws k size).length = size := fun k size => Bytes.length_ofNatLE size k
  constructor
  · have hsizes : Extranonces.ofSizes 4 4 = .ok .default := rfl
    have hx : Extranonces.default.answer countingPool.draws 0 = .ok ⟨[0, 0, 0, 0]⟩ := by rfl
    have hy : Extranonces.default.answer countingPool.draws 1 = .ok ⟨[1, 0, 0, 0]⟩ := by rfl
    obtain ⟨fault, hfault⟩ : ∃ fault, Extranonces.default.answer samplePool.draws 1 = .error fault := by
      have hvain : (Extranonces.default.answer samplePool.draws 1).toOption = none := by decide +kernel
      generalize Extranonces.default.answer samplePool.draws 1 = answer at hvain ⊢
      rcases answer with fault | _
      · exact ⟨fault, rfl⟩
      · cases hvain
    obtain ⟨hsize, hdistinct, -⟩ := (@coinbase_ne_of_subscriptions Ledger _).1 hsizes hcounting
    obtain ⟨-, -, hdrawn⟩ := (@coinbase_ne_of_subscriptions Ledger _).1 hsizes
      (show ∀ k size, (samplePool.draws k size).length = size from fun _ _ => List.length_replicate)
    obtain ⟨hearlier, -⟩ := hdrawn 1 fault hfault
    exact ⟨_, _, fault, hsizes, hcounting, hx, hsize 0 _ hx, hy, hdistinct 0 1 _ _ Nat.zero_ne_one hx hy, hfault,
      hearlier⟩
  · obtain ⟨work, notify, hwork⟩ := exists_sampleWork
    have htemplate := Work.template_eq (Work.build_eq_ok.1 hwork)
    obtain ⟨block, hmade⟩ := Block.exists_sampleBlock htemplate ([0, 0, 0, 0] ++ [1, 2, 3, 4]) ⟨0⟩ ⟨0⟩
    obtain ⟨block', hmade'⟩ := Block.exists_sampleBlock htemplate ([1, 0, 0, 0] ++ [1, 2, 3, 4]) ⟨0⟩ ⟨0⟩
    have hfirst : (ofPool countingPool).Held sampleSubscriptions 0 ⟨0, ⟨[0, 0, 0, 0]⟩, ""⟩ :=
      held_sample 3 (by decide +kernel)
    have hsecond : (ofPool countingPool).Held sampleSubscriptions 1 ⟨1, ⟨[1, 0, 0, 0]⟩, ""⟩ :=
      held_sample 5 (by decide +kernel)
    exact ⟨work, block, block', hmade, hmade', hfirst, hsecond,
      coinbase_ne_of_subscriptions.2 hcounting (by decide) hfirst hsecond hmade hmade'⟩

end Traffic

end MergedMining
