import MergedMining.Pool.Refresh
import MergedMining.Settings.Load
import MergedMining.Proofs.Decimal.Underflow
import MergedMining.Proofs.Pool.Steady
import MergedMining.Proofs.Target.Difficulty
import MergedMining.Proofs.Work.Requirements

/-!
# What settings are good for

Settings that were loaded name a known chain to be mined and a difficulty above zero.  On both chains the target
of the pool is that of the difficulty divided by `2 ^ 16`, so a difficulty that does not vanish there has one
(`exists_poolTarget_iff`).  The length of the signature is looked at only when a job is built: of a well-formed
template one can be built exactly if the signature has at most 255 bytes, of which a merge-mined block takes 48
(`exists_build_none_iff`, `exists_build_aux_iff`).
-/

namespace MergedMining

open Binary64 (Positive value?)
open Stratum (JobId)

/-! ### The target of the pool -/

theorem exists_poolTarget_iff {d : Float} {p : Binary64.Parts} (h : Positive d p) (chain : Chain) :
    (∃ t, poolTarget d chain.shareMultiplier = .ok t) ↔ (2 : ℚ) ^ (-1059 : Int) < p.mantissa * 2 ^ p.exponent := by
  rw [← Binary64.div_pos_iff h]
  show (∃ t, Target.ofDifficulty (d / 65536) = .ok t) ↔ _
  rcases htarget : Target.ofDifficulty (d / 65536) with e | t
  · exact iff_of_false nofun (Target.ofDifficulty_eq_error_iff.1 htarget).2
  · refine iff_of_true ⟨t, rfl⟩ (not_not.1 fun hbad => ?_)
    cases htarget.symm.trans (Target.ofDifficulty_eq_error_iff.2 ⟨rfl, hbad⟩)

/-! ### Jobs of templates that are well formed -/

/-- A template whose texts are digits in the right number, and whose time takes four bytes. -/
structure BlockTemplate.IsWellFormed (template : BlockTemplate) : Prop where
  previousHash : Hex.IsDigits 64 template.previousHash
  txids : ∀ t ∈ template.transactions, Hex.IsDigits 64 t.txid
  bits : Hex.IsDigits 8 template.bits
  commitment : ∀ text ∈ template.witnessCommitment, ∃ count, Hex.IsDigits (2 * count) text
  time : template.time.toNat < UInt32.size

namespace BlockTemplate.IsWellFormed

variable {template : BlockTemplate}

theorem exists_words (h : template.IsWellFormed) : ∃ words, Hex.reverseWords template.previousHash = .ok words := by
  have hdigits : Hex.IsDigits (2 * 32) template.previousHash := h.previousHash
  obtain ⟨bytes, hbytes, hlength⟩ := Hex.exists_bytes_iff_isDigits.2 hdigits
  exact ⟨_, Hex.reverseWords_eq_ok.2 ⟨bytes, hbytes, by rw [hlength], rfl⟩⟩

theorem exists_outputs (h : template.IsWellFormed) (script : Bytes) :
    ∃ outputs, Coinbase.outputs template script = .ok outputs := by
  unfold Coinbase.outputs
  rcases hcommitment : template.witnessCommitment with _ | text
  · exact ⟨_, rfl⟩
  · obtain ⟨count, hdigits⟩ := h.commitment text hcommitment
    obtain ⟨bytes, hbytes, -⟩ := Hex.exists_bytes_iff_isDigits.2 hdigits
    dsimp only
    by_cases hempty : text.isEmpty = true
    · rw [if_pos hempty]
      exact ⟨_, rfl⟩
    · rw [if_neg hempty, hbytes]
      exact ⟨_, rfl⟩

theorem exists_txids (h : template.IsWellFormed) : ∃ ids, template.txids = .ok ids := by
  have hone : ∀ t ∈ template.transactions, ∃ id, t.idBytes = .ok id := by
    intro t ht
    have hdigits : Hex.IsDigits (2 * 32) t.txid := h.txids t ht
    obtain ⟨bytes, hbytes, hlen⟩ := Hex.exists_bytes_iff_isDigits.2 hdigits
    refine ⟨bytes.reverse, TemplateTransaction.idBytes_eq_ok.2 ⟨?_, ?_⟩⟩
    · rwa [List.reverse_reverse]
    · rwa [List.length_reverse]
  choose! id hid using hone
  refine ⟨template.transactions.map id, ?_⟩
  rw [BlockTemplate.txids, Outcome.mapM_eq_ok, List.map_map]
  exact List.map_congr_left hid

end BlockTemplate.IsWellFormed

namespace Work

variable {template : BlockTemplate} {chain : Chain} {signature script : Bytes} {reserved : Nat} {jobId : JobId}

/-- Of a well-formed template a job can be built exactly if its signature has at most 255 bytes. -/
theorem exists_build_none_iff (h : template.IsWellFormed) :
    (∃ result, build (some template) none chain signature script reserved jobId = .ok result) ↔
      signature.length ≤ 255 := by
  rw [exists_build_iff]
  constructor
  · rintro ⟨-, ⟨signed, hsigned, hshort⟩, -⟩
    cases hsigned
    omega
  · intro hshort
    exact ⟨h.exists_words, ⟨signature, rfl, by omega⟩, h.exists_outputs script, h.exists_txids, h.time⟩

/-- With a merge-mined block that has a hash of 32 bytes there are 48 bytes less for the signature. -/
theorem exists_build_aux_iff (h : template.IsWellFormed) {aux : AuxBlock} (hhash : Hex.IsDigits 64 aux.hash) :
    (∃ result, build (some template) (some aux) chain signature script reserved jobId = .ok result) ↔
      signature.length ≤ 207 := by
  rw [exists_build_some_iff, exists_build_none_iff h]
  constructor
  · rintro ⟨-, count, ⟨-, hcount⟩, hfits⟩
    rw [hhash.2] at hcount
    omega
  · intro hshort
    exact ⟨by omega, 32, hhash, by omega⟩

end Work

/-! ### Settings that were loaded -/

theorem ChainSettings.exists_chain_of_check {c : ChainSettings} {earlier : List String}
    (h : c.check earlier = .ok ()) :
    ∃ chain, Chain.ofName c.name = .ok chain := by
  unfold check at h
  rcases hchain : Chain.ofName c.name with e | chain
  · rw [hchain] at h
    cases h
  · exact ⟨chain, rfl⟩

namespace Settings

variable {w : Surroundings} {options : Choices} {s : Settings}

theorem check_of_load (h : load w options = .ok s) : s.check = .ok () := by
  obtain ⟨s', -, h⟩ := Outcome.bind_eq_ok.1 h
  obtain ⟨⟨⟩, hcheck, h⟩ := Outcome.bind_eq_ok.1 h
  cases h
  exact hcheck

/-- What follows a refusal matters only where nothing is refused. -/
private theorem refuse_eq_ok {ε α β : Type} {c : Prop} [Decidable c] {e : ε} {f : α → Except ε β} {x : Except ε β}
    {b : β} : (if c then (throw e : Except ε α) >>= f else x) = .ok b ↔ ¬ c ∧ x = .ok b := by
  by_cases h : c
  · rw [if_pos h]
    exact iff_of_false nofun fun h' => h'.1 h
  · rw [if_neg h, and_iff_right h]

/-- Settings that pass have a first chain, which is known, and a difficulty above zero. -/
theorem of_check (h : s.check = .ok ()) :
    (∃ c rest chain, s.chains = c :: rest ∧ Chain.ofName c.name = .ok chain) ∧
      s.poolDifficulty.isFinite = true ∧ 0 < s.poolDifficulty := by
  unfold check at h
  simp only [refuse_eq_ok, Outcome.bind_eq_ok] at h
  obtain ⟨hchains, -, ⟨⟩, hall, hdifficulty, -⟩ := h
  refine ⟨?_, by simpa using hdifficulty⟩
  rcases heq : s.chains with _ | ⟨c, rest⟩
  · rw [heq] at hchains
    exact absurd rfl hchains
  rw [heq] at hall
  obtain ⟨⟨⟩, hfirst, -⟩ := Outcome.bind_eq_ok.1 hall
  obtain ⟨chain, hchain⟩ := ChainSettings.exists_chain_of_check hfirst
  exact ⟨c, rest, chain, rfl, hchain⟩

/-- What settings that were loaded are good for.  Their first chain is known, and their difficulty gives a
target on it if it is more than `2 ^ -1059`.  A pool with these settings builds a job of every well-formed
template if their signature has at most 255 bytes, and one with a merge-mined block if it has at most 207;
otherwise it builds none. -/
theorem usable_of_load (h : load w options = .ok s) :
    (∃ c rest chain q, s.chains = c :: rest ∧ Chain.ofName c.name = .ok chain ∧ value? s.poolDifficulty = some q ∧
      0 < q ∧ ((2 : ℚ) ^ (-1059 : Int) < q → ∃ t, poolTarget s.poolDifficulty chain.shareMultiplier = .ok t)) ∧
    ∀ {σ : Type} (p : Pool σ) (template : BlockTemplate) (jobId : JobId),
      p.settings = s.pool → template.IsWellFormed →
      ((∃ result, p.buildWork template none jobId = .ok result) ↔ (Bytes.ofText s.blockSignature).length ≤ 255) ∧
      ∀ aux : AuxBlock, Hex.IsDigits 64 aux.hash →
        ((∃ result, p.buildWork template (some aux) jobId = .ok result) ↔
          (Bytes.ofText s.blockSignature).length ≤ 207) := by
  obtain ⟨⟨c, rest, chain, heq, hchain⟩, hgood⟩ := of_check (check_of_load h)
  obtain ⟨parts, hparts⟩ := Binary64.isFinite_and_pos_iff.1 hgood
  refine ⟨⟨c, rest, chain, _, heq, hchain, hparts.value?_eq, ?_, (exists_poolTarget_iff hparts chain).2⟩, ?_⟩
  · have hmantissa : (0 : ℚ) < parts.mantissa := by exact_mod_cast hparts.pos
    positivity
  · intro σ p template jobId hsettings htemplate
    have hsignature : p.settings.signature = Bytes.ofText s.blockSignature := by
      rw [hsettings]
      rfl
    rw [← hsignature]
    exact ⟨Work.exists_build_none_iff htemplate, fun aux haux => Work.exists_build_aux_iff htemplate haux⟩

/-! ### Samples -/

/-- A configuration of one dogecoin daemon, and variables. -/
def sampleSurroundings (vs : List (String × String)) : Surroundings where
  «variables» := vs
  file := fun path =>
    if path = "pool.toml" then
      some "[[chains]]\nname = \"dogecoin\"\nreward_address = \"D1\"\n[[chains.nodes]]\nurl = \"http://node/\"\n"
    else none
  configDirectory := none
  dataDirectory := some "/data"

private theorem exists_of_toOption {ε α β : Type} {x : Except ε α} {f : α → β} {b : β}
    (h : x.toOption.map f = some b) :
    ∃ a, x = .ok a ∧ f a = b := by
  rcases x with e | a
  · cases h
  · exact ⟨a, rfl, Option.some.inj h⟩

theorem sampleTemplate_isWellFormed : sampleTemplate.IsWellFormed where
  previousHash := by decide
  txids := by decide
  bits := by decide
  commitment := by
    rintro _ ⟨⟩
    exact ⟨2, by decide⟩
  time := by decide

theorem usable_of_load_sample : ∃ s t result, load (sampleSurroundings []) { config := some "pool.toml" } = .ok s ∧
    poolTarget s.poolDifficulty Chain.dogecoin.shareMultiplier = .ok t ∧
    { samplePool with settings := s.pool }.buildWork sampleTemplate none ⟨7⟩ = .ok result := by
  have hsome : (load (sampleSurroundings []) { config := some "pool.toml" }).toOption.map (fun s =>
      (value? s.poolDifficulty, (Bytes.ofText s.blockSignature).length)) = some (some 16, 12) := by decide +kernel
  obtain ⟨s, hload, hs⟩ := exists_of_toOption hsome
  obtain ⟨hdifficulty, hlength⟩ := Prod.mk.inj hs
  obtain ⟨⟨c, rest, chain, q, -, -, hq, -, htarget⟩, hbuild⟩ := usable_of_load hload
  obtain rfl : q = 16 := Option.some_inj.1 (hq.symm.trans hdifficulty)
  have hgreat : (2 : ℚ) ^ (-1059 : Int) < 16 := calc
    (2 : ℚ) ^ (-1059 : Int) < 2 ^ (0 : Int) := zpow_lt_zpow_right₀ (by norm_num) (by decide)
    _ < 16 := by norm_num
  obtain ⟨t, ht⟩ := htarget hgreat
  obtain ⟨result, hresult⟩ := (hbuild { samplePool with settings := s.pool } sampleTemplate ⟨7⟩ rfl
    sampleTemplate_isWellFormed).1.2 (by omega)
  exact ⟨s, t, result, hload, ht, hresult⟩

/-- Settings are loaded whose difficulty has no target, and settings whose signature is too long. -/
theorem not_usable :
    (¬ ∀ w options s, load w options = .ok s →
      ∃ t, poolTarget s.poolDifficulty Chain.dogecoin.shareMultiplier = .ok t) ∧
    ¬ ∀ w options s, load w options = .ok s → ∀ (p : Pool Ledger) template jobId, p.settings = s.pool →
      template.IsWellFormed → ∃ result, p.buildWork template none jobId = .ok result := by
  constructor
  · intro hall
    have hsome : (load (sampleSurroundings [])
        { config := some "pool.toml", poolDifficulty := some 1e-320 }).toOption.map
          (fun s => (poolTarget s.poolDifficulty Chain.dogecoin.shareMultiplier).toOption) = some none := by
      decide +kernel
    obtain ⟨s, hload, hs⟩ := exists_of_toOption hsome
    obtain ⟨t, ht⟩ := hall _ _ s hload
    rw [ht] at hs
    cases hs
  · intro hall
    have hsome : (load (sampleSurroundings [("BLOCK_SIGNATURE", String.ofList (List.replicate 256 'x'))])
        { config := some "pool.toml" }).toOption.map
          (fun s => (Bytes.ofText s.blockSignature).length) = some 256 := by
      decide +kernel
    obtain ⟨s, hload, hlength⟩ := exists_of_toOption hsome
    have hbuild := hall _ _ s hload { samplePool with settings := s.pool } sampleTemplate ⟨7⟩ rfl
      sampleTemplate_isWellFormed
    have hshort : (Bytes.ofText s.blockSignature).length ≤ 255 :=
      (Work.exists_build_none_iff sampleTemplate_isWellFormed).1 hbuild
    omega

end Settings

end MergedMining
