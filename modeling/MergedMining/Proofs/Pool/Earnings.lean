import MergedMining.Proofs.Pool.History
import MergedMining.Proofs.Pool.Steady

/-!
# Who earns a share

Every share is earned by a miner that subscribed and then authorized with a login for the chains of the pool,
for work on the extranonce that it was answered with (`earned_by_authorized`).
-/

namespace MergedMining

namespace Traffic

variable {σ : Type} [Store σ]

/-- The login of a session that was given in the course of a run fits the chains of the pool. -/
theorem HasAuthorized.fits {t : Traffic σ} {es : List Event} {place : Nat} {session : Session}
    (h : t.HasAuthorized es place session) : session.login.check t.pool.loginChains = .ok () := by
  obtain ⟨before, _, _, -, h, -⟩ := h
  rw [← (t.proceeds_run before).loginChains]
  exact h.fits

/-- Who earns a share was given its session before. -/
theorem Earns.hasAuthorized {p : Pool σ} {es : List Event} {e : Event} {place : Nat} {session : Session}
    {header : Bytes} {share : Share} (h : ((ofPool p).run es).Earns e place session header share) :
    (ofPool p).HasAuthorized es place session := by
  obtain ⟨_, _, c, _, _, _, _, _, _, _, _, -, hc, -, hrebuilds, -⟩ := h.submitted
  have hexplained := explained_run p es (getElem?_of_connection? hc)
  rw [hrebuilds.authorized] at hexplained
  exact hexplained

/-- Whatever happens, the waiting shares stay, are flushed, or are joined by one that was earned by work on a
connection with a session, and this session was given to it before.  Connections never go back. -/
theorem earned_by_authorized (p : Pool σ) :
    (∀ es e, (((ofPool p).run es).step e).pool.shares.waiting = ((ofPool p).run es).pool.shares.waiting ∨
      (e = .flush ∧ (((ofPool p).run es).step e).pool.shares.waiting = []) ∨
      ∃ place session header share, (((ofPool p).run es).step e).pool.shares.waiting =
          ((ofPool p).run es).pool.shares.waiting ++ [share] ∧
        ((ofPool p).run es).Earns e place session header share ∧ (ofPool p).HasAuthorized es place session ∧
        session.login.check p.loginChains = .ok ()) ∧
    ∀ (es es' : List Event) (place : Nat) (c : Connection), ((ofPool p).run es).connections[place]? = some c →
      ∃ c', ((ofPool p).run (es ++ es')).connections[place]? = some c' ∧ c.stage.Reaches c'.stage := by
  constructor
  · intro es e
    rcases (((ofPool p).run es).step_stepped e).waiting with
      hsame | hflushed | ⟨place, session, header, share, hshare, hearns⟩
    · exact .inl hsame
    · exact .inr (.inl hflushed)
    · have hauthorized := hearns.hasAuthorized
      exact .inr (.inr ⟨place, session, header, share, hshare, hearns, hauthorized, hauthorized.fits⟩)
  · intro es es' place c hc
    rw [run_append]
    exact reaches_run es' hc

/-- The miner of the sample earns a share after it was connected, subscribed and authorized. -/
theorem earned_by_authorized_sample :
    (∃ place session header share,
      (((ofPool samplePool).run sampleStart).step (.line 0 0 (sampleLine "00000000"))).pool.shares.waiting =
        ((ofPool samplePool).run sampleStart).pool.shares.waiting ++ [share] ∧
      ((ofPool samplePool).run sampleStart).Earns (.line 0 0 (sampleLine "00000000")) place session header share ∧
      (ofPool samplePool).HasAuthorized sampleStart place session ∧
      session.login.check samplePool.loginChains = .ok ()) ∧
    ∃ c c', ((ofPool samplePool).run (sampleLogin.take 1)).connections[0]? = some c ∧ c.stage = .connected ∧
      ((ofPool samplePool).run (sampleLogin.take 1 ++ sampleLogin.drop 1)).connections[0]? = some c' ∧
      c'.stage = .authorized sampleSession ∧ c.stage.Reaches c'.stage := by
  constructor
  · obtain ⟨work, notify, hwork⟩ := exists_sampleWork
    obtain ⟨block, hmade⟩ := Block.exists_sampleBlock (Work.template_eq (Work.build_eq_ok.1 hwork))
      ([7, 7, 7, 7] ++ [0, 0, 0, 0]) ⟨0⟩ ⟨0x6553f101⟩
    obtain ⟨header, hheader⟩ := Block.exists_header hmade
    obtain ⟨hstart, -, hjob, hnew⟩ := isSample_start hwork
    obtain ⟨-, -, ⟨share, hshare⟩, -⟩ := hstart.submit hwork hmade hheader reads_zero hjob (hnew _)
    rcases (earned_by_authorized samplePool).1 sampleStart (.line 0 0 (sampleLine "00000000")) with
      hsame | ⟨hflush, -⟩ | hearned
    · rw [hshare] at hsame
      simp at hsame
    · cases hflush
    · exact hearned
  · obtain ⟨c, hc, hstage, -⟩ := isSample_login.1.miner
    obtain ⟨c', hc', hreaches⟩ :=
      (earned_by_authorized samplePool).2 (sampleLogin.take 1) (sampleLogin.drop 1) 0 _ rfl
    have hsame : c' = c := by
      rw [List.take_append_drop] at hc'
      exact Option.some.inj (hc'.symm.trans (getElem?_of_connection? hc))
    exact ⟨_, c', rfl, rfl, hc', hsame ▸ hstage, hreaches⟩

end Traffic

end MergedMining
