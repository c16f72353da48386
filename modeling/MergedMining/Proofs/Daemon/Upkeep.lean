import MergedMining.Daemon.Cluster

/-!
# Checks and recovery tasks side by side

Any number of checks of one cluster can be under way while recovery tasks look after its first node.  They share
the index of the active node and the flag that says that a task is at work, and each of them reads or writes one
of these at a time.  A task that brings the first node back writes the index first and takes the flag down
afterwards.  As long as no check finds the flag up between these two writes, a cluster that was moved away from
its first node and is left alone is looked after (`isTended_of_isQuiet`).  A check that does can leave it there
with nobody at work (`not_always_isTended`).
-/

namespace MergedMining

/-- How far a check has come. -/
inductive Upkeep.Check (nodes : List Node)
  | begun
  | asking (index : Fin nodes.length)
  | sick
  | searching (rest : List (Fin nodes.length))
  | found (index : Fin nodes.length)
  | moved
  | away
  | passed
  | failed
  deriving DecidableEq

/-- How far a recovery task has come. -/
inductive Upkeep.Recovery
  | waiting
  | healthy
  | restored
  | ended
  deriving DecidableEq

/-- The state of a cluster with all checks and recovery tasks that there ever were, in the order of their coming. -/
structure Upkeep (nodes : List Node) where
  active : Fin nodes.length
  recovering : Bool
  checks : List (Upkeep.Check nodes)
  recoveries : List Upkeep.Recovery

namespace Upkeep

variable {nodes : List Node} {chain : String} {s s' : Upkeep nodes} {place : Nat} {healthy : Bool}

/-- The cluster as the next one who looks at it finds it. -/
abbrev cluster (s : Upkeep nodes) (chain : String) : Cluster := ⟨chain, nodes, s.active, s.recovering, s.active.isLt⟩

/-- A cluster that was not checked yet. -/
def ofCluster (c : Cluster) : Upkeep c.nodes := ⟨⟨c.active, c.active_lt⟩, c.recovering, [], []⟩

/-! ### Steps -/

/-- A check that has ended. -/
def Check.isOver : Check nodes → Bool
  | .passed | .failed => true
  | _ => false

/-- A recovery task that will still look at the first node, or make it active. -/
def Recovery.isAtWork : Recovery → Bool
  | .waiting | .healthy => true
  | _ => false

/-- The flag is put up; whoever finds it down starts a recovery task. -/
def raise (s : Upkeep nodes) : Upkeep nodes :=
  if s.recovering then s else { s with recovering := true, recoveries := s.recoveries ++ [.waiting] }

/-- The next step of a check. -/
def goOn (s : Upkeep nodes) (healthy : Bool) : Check nodes → Check nodes × Upkeep nodes
  | .begun => (.asking s.active, s)
  | .asking _ => (if healthy then .passed else .sick, s)
  | .sick => (.searching (s.cluster "").searchOrder, s)
  | .searching [] => (.failed, s)
  | .searching (index :: rest) => (if healthy then .found index else .searching rest, s)
  | .found index => (.moved, { s with active := index })
  | .moved => (if s.active.val = 0 then .passed else .away, s)
  | .away => (.passed, s.raise)
  | .passed => (.passed, s)
  | .failed => (.failed, s)

/-- The next step of a recovery task. -/
def lookAfter (s : Upkeep nodes) (healthy : Bool) : Recovery → Recovery × Upkeep nodes
  | .waiting => (if healthy then .healthy else .waiting, s)
  | .healthy => (.restored, { s with active := ⟨0, Nat.zero_lt_of_lt s.active.isLt⟩ })
  | .restored => (.ended, { s with recovering := false })
  | .ended => (.ended, s)

/-- What can happen: a check begins, or the check or the recovery task of some place does its next step.  What a
node that is asked for its health answers comes with the step. -/
inductive Event
  | begin
  | check (place : Nat) (healthy : Bool)
  | recover (place : Nat) (healthy : Bool)

/-- What happens at an event. -/
def step (s : Upkeep nodes) : Event → Upkeep nodes
  | .begin => { s with checks := s.checks ++ [.begun] }
  | .check place healthy =>
    match s.checks[place]? with
    | none => s
    | some check =>
      let (check', s') := s.goOn healthy check
      { s' with checks := s'.checks.set place check' }
  | .recover place healthy =>
    match s.recoveries[place]? with
    | none => s
    | some recovery =>
      let (recovery', s') := s.lookAfter healthy recovery
      { s' with recoveries := s'.recoveries.set place recovery' }

/-- What happens at events in turn. -/
def run (s : Upkeep nodes) (es : List Event) : Upkeep nodes := es.foldl step s

theorem run_append (s : Upkeep nodes) (es es' : List Event) : s.run (es ++ es') = (s.run es).run es' :=
  List.foldl_append

/-- No check is under way. -/
def IsQuiet (s : Upkeep nodes) : Prop := ∀ check ∈ s.checks, check.isOver = true

/-- A recovery task is at work. -/
def IsTended (s : Upkeep nodes) : Prop := ∃ recovery ∈ s.recoveries, recovery.isAtWork = true

instance : Decidable s.IsQuiet := inferInstanceAs (Decidable (∀ check ∈ s.checks, check.isOver = true))

instance : Decidable s.IsTended := inferInstanceAs (Decidable (∃ recovery ∈ s.recoveries, recovery.isAtWork = true))

/-- A check is about to find the flag up although a recovery task has done all its work but to take it down. -/
def overtakes (s : Upkeep nodes) : Event → Bool
  | .check place _ => s.checks[place]? == some .away && s.recoveries.contains .restored
  | _ => false

/-- That happens in the course of some events. -/
def overtaken (s : Upkeep nodes) : List Event → Bool
  | [] => false
  | e :: es => s.overtakes e || overtaken (s.step e) es

/-! ### Uninterrupted -/

/-- What a check has come to when it gives its result. -/
def Check.ofResult : Except Fault Unit → Check nodes
  | .ok () => .passed
  | .error _ => .failed

/-- One more check. -/
def withCheck (s : Upkeep nodes) (check : Check nodes) : Upkeep nodes := { s with checks := s.checks ++ [check] }

private theorem step_withCheck (s : Upkeep nodes) (check : Check nodes) (healthy : Bool) :
    (s.withCheck check).step (.check s.checks.length healthy) =
      (s.goOn healthy check).2.withCheck (s.goOn healthy check).1 := by
  have hcheck : (s.withCheck check).checks[s.checks.length]? = some check := by simp [withCheck]
  simp only [step, hcheck]
  cases check with
  | searching rest =>
    rcases rest with _ | ⟨index, rest⟩
    · simp [goOn, withCheck]
    · simp [goOn, withCheck]
  | moved =>
    simp only [goOn, withCheck, List.set_append_right _ _ (Nat.le_refl _), Nat.sub_self, List.set_cons_zero]
    rfl
  | away =>
    by_cases hup : s.recovering = true
    · simp [goOn, withCheck, raise, hup]
    · simp [goOn, withCheck, raise, hup]
  | _ => simp [goOn, withCheck, cluster]

/-- The last check asks one node after the other until one is healthy. -/
private theorem exists_run_search (s : Upkeep nodes) (chain : String) (d : Daemons) (rest : List (Fin nodes.length)) :
    ∃ answers : List Bool, (s.withCheck (.searching rest)).run (answers.map (.check s.checks.length)) =
      match ((s.cluster chain).firstHealthy rest d).1 with
      | some index => s.withCheck (.found index)
      | none => s.withCheck .failed := by
  induction rest generalizing d with
  | nil =>
    refine ⟨[false], ?_⟩
    show (s.withCheck (.searching [])).step (.check s.checks.length false) = _
    rw [step_withCheck]
    rfl
  | cons index rest ih =>
    rcases hanswer : (nodes.get index).isHealthy d with ⟨healthy, d'⟩
    have hstep := step_withCheck s (.searching (index :: rest)) healthy
    cases healthy with
    | false =>
      have hfirst : (s.cluster chain).firstHealthy (index :: rest) d = (s.cluster chain).firstHealthy rest d' := by
        simp only [Cluster.firstHealthy, hanswer]
      obtain ⟨answers, hrun⟩ := ih d'
      refine ⟨false :: answers, ?_⟩
      rw [hfirst, List.map_cons, ← hrun]
      exact congrArg (run · _) hstep
    | true =>
      have hfirst : (s.cluster chain).firstHealthy (index :: rest) d = (some index, d') := by
        simp only [Cluster.firstHealthy, hanswer]
      refine ⟨[true], ?_⟩
      rw [hfirst]
      exact hstep

/-- A check that found a healthy node makes it active, and calls for recovery if it is not the first one. -/
private theorem exists_run_found (s : Upkeep nodes) (chain : String) (index : Fin nodes.length) :
    ∃ answers : List Bool, ((s.withCheck (.found index)).run (answers.map (.check s.checks.length))).cluster chain =
        ((s.cluster chain).activate index).startRecovery ∧
      ((s.withCheck (.found index)).run (answers.map (.check s.checks.length))).checks = s.checks ++ [.passed] := by
  have hmoved : (s.withCheck (.found index)).run ([false].map (.check s.checks.length)) =
      ({ s with active := index }).withCheck .moved := step_withCheck s (.found index) false
  have hlooked : (({ s with active := index }).withCheck .moved).run ([false].map (.check s.checks.length)) =
      ({ s with active := index }).withCheck (if index.val = 0 then .passed else .away) :=
    step_withCheck { s with active := index } .moved false
  by_cases hfirst : index.val = 0
  · refine ⟨[false] ++ [false], ?_⟩
    rw [List.map_append, run_append, hmoved, hlooked, if_pos hfirst]
    refine ⟨?_, rfl⟩
    show _ = if index.val = 0 then _ else _
    rw [if_pos hfirst]
    rfl
  · have hraised : (({ s with active := index }).withCheck .away).run ([false].map (.check s.checks.length)) =
        ({ s with active := index }).raise.withCheck .passed := step_withCheck { s with active := index } .away false
    refine ⟨[false] ++ ([false] ++ [false]), ?_⟩
    rw [List.map_append, run_append, hmoved, List.map_append, run_append, hlooked, if_neg hfirst, hraised]
    have hstart : ((s.cluster chain).activate index).startRecovery = ⟨chain, nodes, index, true, index.isLt⟩ :=
      if_neg hfirst
    rw [hstart]
    unfold raise
    split
    · next hup => exact ⟨congrArg (Cluster.mk chain nodes index · index.isLt) hup, rfl⟩
    · exact ⟨rfl, rfl⟩

/-- A check that nothing interrupts does to the cluster what a check does, and ends with its result. -/
theorem exists_run_check (s : Upkeep nodes) (chain : String) (d : Daemons) : ∃ answers : List Bool,
    (s.run (.begin :: answers.map (.check s.checks.length))).cluster chain = ((s.cluster chain).check d).2.1 ∧
    (s.run (.begin :: answers.map (.check s.checks.length))).checks =
      s.checks ++ [.ofResult ((s.cluster chain).check d).1] := by
  have hbegun (answers : List Bool) : s.run (.begin :: (false :: answers).map (.check s.checks.length)) =
      (s.withCheck (.asking s.active)).run (answers.map (.check s.checks.length)) :=
    congrArg (run · _) (step_withCheck s .begun false)
  have hasked (healthy : Bool) := step_withCheck s (.asking s.active) healthy
  rcases hanswer : (s.cluster chain).activeNode.isHealthy d with ⟨healthy, d'⟩
  cases healthy with
  | true =>
    have hcheck : (s.cluster chain).check d = (.ok (), s.cluster chain, d') := by simp only [Cluster.check, hanswer]
    refine ⟨[false, true], ?_⟩
    rw [hbegun, hcheck]
    show ((s.withCheck _).step (.check s.checks.length true)).cluster chain = _ ∧
      ((s.withCheck _).step (.check s.checks.length true)).checks = _
    rw [hasked true]
    exact ⟨rfl, rfl⟩
  | false =>
    have hsick (answers : List Bool) :
        (s.withCheck (.asking s.active)).run ((false :: false :: answers).map (.check s.checks.length)) =
          (s.withCheck (.searching (s.cluster chain).searchOrder)).run (answers.map (.check s.checks.length)) :=
      (congrArg (run · _) (hasked false)).trans (congrArg (run · _) (step_withCheck s .sick false))
    obtain ⟨answers, hsearch⟩ := exists_run_search s chain d' (s.cluster chain).searchOrder
    rcases hfirst : (s.cluster chain).firstHealthy (s.cluster chain).searchOrder d' with ⟨_ | index, d''⟩
    · have hcheck : (s.cluster chain).check d = (.error (.noHealthyNodes chain), s.cluster chain, d'') := by
        simp only [Cluster.check, hanswer, Cluster.findHealthy, hfirst]
      rw [hfirst] at hsearch
      refine ⟨false :: false :: false :: answers, ?_⟩
      rw [hbegun, hsick, hsearch, hcheck]
      exact ⟨rfl, rfl⟩
    · have hcheck : (s.cluster chain).check d = (.ok (), ((s.cluster chain).activate index).startRecovery, d'') := by
        simp only [Cluster.check, hanswer, Cluster.findHealthy, hfirst]
      rw [hfirst] at hsearch
      obtain ⟨more, hfound⟩ := exists_run_found s chain index
      refine ⟨false :: false :: false :: (answers ++ more), ?_⟩
      rw [hbegun, hsick, List.map_append, run_append, hsearch, hcheck]
      exact hfound

private theorem step_recover {recovery : Recovery} (h : s.recoveries[place]? = some recovery) (healthy : Bool) :
    s.step (.recover place healthy) = { (s.lookAfter healthy recovery).2 with
      recoveries := s.recoveries.set place (s.lookAfter healthy recovery).1 } := by
  simp only [step, h]
  cases recovery <;> rfl

/-- A look of a waiting recovery task that nothing interrupts does to the cluster what such a look does. -/
theorem exists_run_recover (chain : String) (d : Daemons) (hwaiting : s.recoveries[place]? = some .waiting) :
    ∃ answers : List Bool,
      (s.run (answers.map (.recover place))).cluster chain = ((s.cluster chain).recover d).1 ∧
      (s.run (answers.map (.recover place))).recoveries = s.recoveries.set place
        (if ((s.cluster chain).firstNode.isHealthy d).1 then .ended else .waiting) := by
  obtain ⟨hplace, hget⟩ := List.getElem?_eq_some_iff.1 hwaiting
  rcases hanswer : (s.cluster chain).firstNode.isHealthy d with ⟨healthy, d'⟩
  cases healthy with
  | false =>
    refine ⟨[], ?_, ?_⟩
    · simp only [Cluster.recover, hanswer]
      rfl
    · rw [if_neg Bool.false_ne_true, ← hget, List.set_getElem_self]
      rfl
  | true =>
    have hself (recovery : Recovery) : (s.recoveries.set place recovery)[place]? = some recovery :=
      List.getElem?_set_self hplace
    have hasked : s.step (.recover place true) = { s with recoveries := s.recoveries.set place .healthy } :=
      step_recover hwaiting true
    have hstored : ({ s with recoveries := s.recoveries.set place .healthy }).step (.recover place true) =
        { s with
          active := ⟨0, Nat.zero_lt_of_lt s.active.isLt⟩
          recoveries := s.recoveries.set place .restored } := by
      rw [step_recover (hself .healthy), List.set_set]
      rfl
    have hlowered : ({ s with
          active := ⟨0, Nat.zero_lt_of_lt s.active.isLt⟩
          recoveries := s.recoveries.set place .restored }).step (.recover place true) =
        { s with
          active := ⟨0, Nat.zero_lt_of_lt s.active.isLt⟩
          recovering := false
          recoveries := s.recoveries.set place .ended } := by
      rw [step_recover (hself .restored), List.set_set]
      rfl
    have hrun : s.run ([true, true, true].map (.recover place)) =
        { s with
          active := ⟨0, Nat.zero_lt_of_lt s.active.isLt⟩
          recovering := false
          recoveries := s.recoveries.set place .ended } := by
      show ((s.step (.recover place true)).step (.recover place true)).step (.recover place true) = _
      rw [hasked, hstored, hlowered]
    refine ⟨[true, true, true], ?_, ?_⟩
    · rw [hrun]
      simp only [Cluster.recover, hanswer]
    · rw [hrun, if_pos rfl]

/-! ### Who is at work -/

private theorem mem_set_or {α : Type} {l : List α} {a b : α} (h : a ∈ l) (place : Nat) :
    a ∈ l.set place b ∨ l[place]? = some a := by
  obtain ⟨i, hi⟩ := List.mem_iff_getElem?.1 h
  by_cases heq : place = i
  · subst heq
    exact .inr hi
  · refine .inl (List.mem_iff_getElem?.2 ⟨i, ?_⟩)
    rw [List.getElem?_set_ne heq, hi]

private theorem mem_set_of_some {α : Type} {l : List α} {a b : α} (h : l[place]? = some a) : b ∈ l.set place b := by
  obtain ⟨hlt, -⟩ := List.getElem?_eq_some_iff.1 h
  exact List.mem_set hlt b

/-- A flag that is up will be taken down by somebody, and somebody looks after a cluster that is away from its
first node or is about to call for it. -/
structure Sound (s : Upkeep nodes) : Prop where
  raised : s.recovering = true → ∃ recovery ∈ s.recoveries, recovery ≠ .ended
  away : s.active.val ≠ 0 → s.IsTended ∨ ∃ check ∈ s.checks, check = .moved ∨ check = .away

theorem sound_of_ofNodes {c : Cluster} (h : Cluster.ofNodes chain nodes = .ok c) : (ofCluster c).Sound := by
  unfold Cluster.ofNodes at h
  split at h
  · cases h
    exact ⟨nofun, fun hne => absurd rfl hne⟩
  · cases h

section

variable (h : s.Sound)

include h

private theorem Sound.begin : (s.step .begin).Sound := by
  refine ⟨h.raised, fun hne => (h.away hne).imp_right ?_⟩
  rintro ⟨check, hmem, hphase⟩
  exact ⟨check, List.mem_append_left _ hmem, hphase⟩

/-- A check that was neither about to look at the index nor about to put up the flag goes on. -/
private theorem Sound.setCheck {check : Check nodes} (hcheck : s.checks[place]? = some check)
    (hmoved : check ≠ .moved) (haway : check ≠ .away) (check' : Check nodes) :
    ({ s with checks := s.checks.set place check' }).Sound := by
  refine ⟨h.raised, fun hne => (h.away hne).imp_right ?_⟩
  rintro ⟨other, hmem, hphase⟩
  rcases mem_set_or (b := check') hmem place with hstill | hstepped
  · exact ⟨other, hstill, hphase⟩
  · obtain rfl := Option.some.inj (hcheck.symm.trans hstepped)
    exact absurd hphase (not_or.2 ⟨hmoved, haway⟩)

private theorem Sound.found {index : Fin nodes.length} (hcheck : s.checks[place]? = some (.found index)) :
    ({ s with active := index, checks := s.checks.set place .moved }).Sound :=
  ⟨h.raised, fun _ => .inr ⟨.moved, mem_set_of_some hcheck, .inl rfl⟩⟩

private theorem Sound.moved (hcheck : s.checks[place]? = some .moved) :
    ({ s with checks := s.checks.set place (if s.active.val = 0 then .passed else .away) }).Sound := by
  refine ⟨h.raised, fun hne => .inr ⟨.away, ?_, .inr rfl⟩⟩
  have hactive : s.active.val ≠ 0 := hne
  show _ ∈ s.checks.set place (if s.active.val = 0 then .passed else .away)
  rw [if_neg hactive]
  exact mem_set_of_some hcheck

/-- A check puts up the flag, and no recovery task is between its two writes. -/
private theorem Sound.raise (hno : Recovery.restored ∉ s.recoveries) (checks : List (Check nodes)) :
    ({ s.raise with checks }).Sound := by
  unfold Upkeep.raise
  split
  · next hup =>
    -- a flag that is up belongs to a task, and with none between its two writes this task is at work
    obtain ⟨recovery, hmem, hne⟩ := h.raised hup
    refine ⟨fun _ => ⟨recovery, hmem, hne⟩, fun _ => .inl ⟨recovery, hmem, ?_⟩⟩
    cases recovery with
    | waiting => rfl
    | healthy => rfl
    | restored => exact absurd hmem hno
    | ended => exact absurd rfl hne
  · have hmem : Recovery.waiting ∈ s.recoveries ++ [.waiting] := List.mem_append_right _ (List.mem_singleton.2 rfl)
    exact ⟨fun _ => ⟨.waiting, hmem, nofun⟩, fun _ => .inl ⟨.waiting, hmem, rfl⟩⟩

private theorem Sound.check (healthy : Bool) (hno : s.overtakes (.check place healthy) = false) :
    (s.step (.check place healthy)).Sound := by
  unfold step
  dsimp only
  split
  · exact h
  · next check hcheck =>
    cases check with
    | begun => exact h.setCheck hcheck nofun nofun _
    | asking index => exact h.setCheck hcheck nofun nofun _
    | sick => exact h.setCheck hcheck nofun nofun _
    | searching rest =>
      rcases rest with _ | ⟨index, rest⟩
      · exact h.setCheck hcheck nofun nofun _
      · exact h.setCheck hcheck nofun nofun _
    | found index => exact h.found hcheck
    | moved => exact h.moved hcheck
    | away =>
      refine h.raise (fun hmem => ?_) _
      have hnot : (s.checks[place]? == some .away && s.recoveries.contains .restored) = false := hno
      rw [hcheck, List.contains_iff_mem.2 hmem] at hnot
      cases hnot
    | passed => exact h.setCheck hcheck nofun nofun _
    | failed => exact h.setCheck hcheck nofun nofun _

private theorem Sound.recover (place : Nat) (healthy : Bool) : (s.step (.recover place healthy)).Sound := by
  unfold step
  dsimp only
  split
  · exact h
  · next recovery hrecovery =>
    have hself : ∀ recovery', recovery' ∈ s.recoveries.set place recovery' := fun _ => mem_set_of_some hrecovery
    cases recovery with
    | waiting =>
      rcases healthy with _ | _
      · exact ⟨fun _ => ⟨.waiting, hself _, nofun⟩, fun _ => .inl ⟨.waiting, hself _, rfl⟩⟩
      · exact ⟨fun _ => ⟨.healthy, hself _, nofun⟩, fun _ => .inl ⟨.healthy, hself _, rfl⟩⟩
    | healthy => exact ⟨fun _ => ⟨.restored, hself _, nofun⟩, fun hne => absurd rfl hne⟩
    | restored =>
      refine ⟨nofun, fun hne => (h.away hne).imp_left ?_⟩
      rintro ⟨other, hmem, hwork⟩
      rcases mem_set_or (b := Recovery.ended) hmem place with hstill | hstepped
      · exact ⟨other, hstill, hwork⟩
      · obtain rfl := Option.some.inj (hrecovery.symm.trans hstepped)
        cases hwork
    | ended =>
      have hkeeps : ∀ other ∈ s.recoveries, other ≠ .ended → other ∈ s.recoveries.set place .ended := by
        intro other hmem hne
        refine (mem_set_or hmem place).resolve_right fun hstepped => ?_
        exact hne (Option.some.inj (hstepped.symm.trans hrecovery))
      refine ⟨fun hup => ?_, fun hne => (h.away hne).imp_left ?_⟩
      · obtain ⟨other, hmem, hother⟩ := h.raised hup
        exact ⟨other, hkeeps other hmem hother, hother⟩
      · rintro ⟨other, hmem, hwork⟩
        refine ⟨other, hkeeps other hmem fun hended => ?_, hwork⟩
        rw [hended] at hwork
        cases hwork

theorem Sound.step (e : Event) (hno : s.overtakes e = false) : (s.step e).Sound := by
  cases e with
  | begin => exact h.begin
  | check place healthy => exact h.check healthy hno
  | recover place healthy => exact h.recover place healthy

theorem Sound.run (es : List Event) (hno : s.overtaken es = false) : (s.run es).Sound := by
  induction es generalizing s with
  | nil => exact h
  | cons e es ih =>
    obtain ⟨hfirst, hrest⟩ := Bool.or_eq_false_iff.1 hno
    exact ih (h.step e hfirst) hrest

end

/-- A cluster that no check is at and that is not on its first node is looked after, in every run in which no
check comes between the two writes with which a recovery task ends. -/
theorem isTended_of_isQuiet {c : Cluster} (hc : Cluster.ofNodes chain nodes = .ok c) (es : List Event)
    (hno : (ofCluster c).overtaken es = false) (hquiet : ((ofCluster c).run es).IsQuiet)
    (hactive : ((ofCluster c).run es).active.val ≠ 0) : ((ofCluster c).run es).IsTended := by
  rcases ((sound_of_ofNodes hc).run es hno).away hactive with htended | ⟨check, hmem, hphase⟩
  · exact htended
  · -- a check that is still to look at the index or to put up the flag is under way
    have hover := hquiet check hmem
    rcases hphase with rfl | rfl
    · cases hover
    · cases hover

/-! ### A sample -/

/-- Two nodes. -/
def sampleCluster : Cluster := ⟨"dogecoin", [⟨0, 0, "http://a"⟩, ⟨0, 1, "http://b"⟩], 0, false, by decide⟩

/-- A check finds the first node sick and the second one healthy. -/
def sampleCheck : List Event := .begin :: [false, false, false, true, false, false, false].map (.check 0)

/-- The first node stays sick for a second check, but is healthy for the recovery task right after that.  The
second check makes the second node active again and puts up the flag between the two writes of the task. -/
def sampleOvertaking : List Event :=
  sampleCheck ++ .begin :: [false, false, false, false, true].map (.check 1) ++
    [true, false].map (.recover 0) ++ [false, false, false].map (.check 1) ++ [.recover 0 false]

theorem isTended_of_isQuiet_sample : Cluster.ofNodes "dogecoin" sampleCluster.nodes = .ok sampleCluster ∧
    (ofCluster sampleCluster).overtaken sampleCheck = false ∧ ((ofCluster sampleCluster).run sampleCheck).IsQuiet ∧
    ((ofCluster sampleCluster).run sampleCheck).active.val ≠ 0 ∧
      ((ofCluster sampleCluster).run sampleCheck).IsTended := by
  have hc : Cluster.ofNodes "dogecoin" sampleCluster.nodes = .ok sampleCluster := rfl
  have hno : (ofCluster sampleCluster).overtaken sampleCheck = false := by decide
  have hquiet : ((ofCluster sampleCluster).run sampleCheck).IsQuiet := by decide
  have hactive : ((ofCluster sampleCluster).run sampleCheck).active.val ≠ 0 := by decide
  exact ⟨hc, hno, hquiet, hactive, isTended_of_isQuiet hc sampleCheck hno hquiet hactive⟩

/-- A check between the two writes of a recovery task leaves a cluster away from its first node, and nobody at
work. -/
theorem not_always_isTended :
    ¬ ∀ (chain : String) (nodes : List Node) (c : Cluster) (es : List Event), Cluster.ofNodes chain nodes = .ok c →
      ((ofCluster c).run es).IsQuiet → ((ofCluster c).run es).active.val ≠ 0 → ((ofCluster c).run es).IsTended := by
  intro h
  have htended := h "dogecoin" sampleCluster.nodes sampleCluster sampleOvertaking rfl (by decide) (by decide)
  revert htended
  decide

end Upkeep

end MergedMining
