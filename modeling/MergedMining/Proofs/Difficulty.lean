import MergedMining.Chain
import MergedMining.Proofs.Decimal.Size
import MergedMining.Proofs.Json.Text
import MergedMining.Target

/-!
# Difficulties are written as numbers

The difficulty of every target but zero is a double of moderate size (`Target.between_difficulty`), and such a
double is written as a number that can be read (`Json.exists_rereadFloat_of_between`).  The difficulty of target
zero is infinite and written as null (`Target.rereadFloat_difficulty_zero`).
-/

namespace MergedMining

open Binary64

/-! ### Reading doubles of moderate size -/

namespace Decimal

private theorem magnitude_le {p : Binary64.Parts} (h : p.Fits) (hexponent : p.exponent ≤ 200) :
    magnitude (Interval.ofParts p).value (Interval.ofParts p).den ≤ 77 := by
  obtain ⟨hden, hlow, hvalue, -, -, -⟩ := Interval.proper_ofParts h
  obtain ⟨hmagnitude, -⟩ := magnitude_bounds (hlow.trans hvalue) hden
  have hbound : (Interval.ofParts p).value < 10 ^ 77 * (Interval.ofParts p).den := by
    have hscale : 1 <<< (p.exponent - 2).toNat ≤ 2 ^ 198 := by
      rw [Nat.one_shiftLeft]
      exact Nat.pow_le_pow_right (by decide) (by omega)
    calc (Interval.ofParts p).value = 4 * p.mantissa * (1 <<< (p.exponent - 2).toNat) := rfl
      _ ≤ 4 * 2 ^ 53 * 2 ^ 198 := Nat.mul_le_mul (by have := h.lt; omega) hscale
      _ < 10 ^ 77 * 1 := by norm_num
      _ ≤ 10 ^ 77 * (Interval.ofParts p).den := Nat.mul_le_mul_left _ hden
  have hden' : (0 : ℚ) < (Interval.ofParts p).den := by exact_mod_cast hden
  have hlt : (10 : ℚ) ^ (magnitude (Interval.ofParts p).value (Interval.ofParts p).den - 1) < 10 ^ (77 : Int) := by
    refine hmagnitude.trans_lt ?_
    rw [div_lt_iff₀ hden']
    exact_mod_cast hbound
  have hless := (zpow_lt_zpow_iff_right₀ (by norm_num)).1 hlt
  omega

private theorem isInf_mul_powerOfTen (n : UInt64) {e : Nat} (he : e < 100) :
    (n.toFloat * powerOfTen e).isInf = false := by
  have hpowers : ∀ e < 100, Between (-52) 300 (powerOfTen e) := by decide +kernel
  by_cases hn : n = 0
  · have hzero : (0 : UInt64).toFloat = 0 := rfl
    rw [hn, hzero, (hpowers e he).zero_mul]
    rfl
  · exact ((between_toFloat hn).mul (hpowers e he) (by decide) (by decide)).isInf_eq

/-- A number below a certain power of ten is not too large for a double. -/
theorem exists_scale_eq (s : Nat) {e : Int} (he : e < 100) : ∃ x, scale s e = some x := by
  unfold scale
  dsimp only
  split
  · next hnear =>
    unfold scaleFinite
    split
    · exact ⟨_, rfl⟩
    · dsimp only
      rw [isInf_mul_powerOfTen _ (by omega), if_neg Bool.false_ne_true]
      exact ⟨_, rfl⟩
  · split
    · exact ⟨_, rfl⟩
    · rw [if_neg (by omega)]
      split
      · unfold scaleFinite
        rw [if_pos (by omega)]
        exact ⟨_, rfl⟩
      · exact ⟨_, rfl⟩

end Decimal

theorem Json.exists_rereadFloat_of_between {x : Float} {low high : Int} (h : Between low high x)
    (hhigh : high ≤ 200) :
    ∃ y, rereadFloat x = some (.float y) := by
  obtain ⟨p, hp, -, hne, -, hexponent⟩ := h.exists_parts
  obtain ⟨s, e, -, he, hread, -⟩ := exists_rereadFloat_eq hp
  have hmagnitude := Decimal.magnitude_le (Binary64.fits_of_partsOfBits hp hne) (by omega)
  obtain ⟨y, hy⟩ := Decimal.exists_scale_eq s (show e < 100 by omega)
  rw [hread, scaled?, hy]
  exact ⟨_, rfl⟩

/-! ### Targets as doubles -/

namespace Target

/-- Adds the next lower word to the words above it. -/
private def addWord (x : Float) (word : UInt64) : Float := x * 18446744073709551616 + word.toFloat

set_option maxRecDepth 2000 in
private theorem between_wordSize : Between 12 12 18446744073709551616 := by decide

private theorem addWord_zero_zero : addWord 0 0 = 0 := by
  rw [addWord, between_wordSize.zero_mul]
  rfl

private theorem between_addWord_zero {word : UInt64} (h : word ≠ 0) : Between (-52) 12 (addWord 0 word) := by
  rw [addWord, between_wordSize.zero_mul]
  exact (between_toFloat h).zero_add (by decide) (by decide)

private theorem between_addWord {x : Float} {high : Int} (h : Between (-52) high x) (hlow : 12 ≤ high)
    (hhigh : high ≤ 800) (word : UInt64) : Between (-52) (high + 68) (addWord x word) := by
  have hshift := h.mul between_wordSize (by decide) (by omega)
  by_cases hword : word = 0
  · rw [hword]
    exact (hshift.add_zero (by decide) (by omega)).mono (by decide) (by omega)
  · exact (hshift.add (between_toFloat hword) (by decide) (by omega)).mono (by decide) (by omega)

private theorem between_foldl_addWord {words : List UInt64} {x : Float} {high : Int} (h : Between (-52) high x)
    (hlow : 12 ≤ high) (hhigh : high + 68 * words.length ≤ 800) :
    Between (-52) (high + 68 * words.length) (words.foldl addWord x) := by
  induction words generalizing x high with
  | nil => exact h.mono (by decide) (by simp)
  | cons word words ih =>
    rw [List.length_cons] at hhigh ⊢
    exact (ih (between_addWord h hlow (by omega) word) (by omega) (by omega)).mono (by decide) (by omega)

/-- Only words that are all zero amount to a double that is zero. -/
private theorem between_foldl_words {words : List UInt64} (h : ∃ word ∈ words, word ≠ 0)
    (hlength : words.length ≤ 10) :
    Between (-52) (12 + 68 * words.length) (words.foldl addWord 0) := by
  induction words with
  | nil => simp at h
  | cons word words ih =>
    rw [List.length_cons] at hlength ⊢
    rw [List.foldl_cons]
    by_cases hword : word = 0
    · obtain ⟨word', hmem, hne⟩ := h
      have hrest : word' ∈ words := (List.mem_cons.1 hmem).resolve_left fun heq => hne (heq.trans hword)
      rw [hword, addWord_zero_zero]
      exact (ih ⟨word', hrest, hne⟩ (by omega)).mono (by decide) (by omega)
    · exact (between_foldl_addWord (between_addWord_zero hword) (by decide) (by omega)).mono (by decide) (by omega)

private theorem exists_word_ne_zero {t : Target} (h : t.toNat ≠ 0) :
    ∃ word ∈ [3, 2, 1, 0].map fun i : Nat => UInt64.ofNat (t.toNat >>> (64 * i)), word ≠ 0 := by
  by_contra hzero
  have hwords : ∀ i ∈ [3, 2, 1, 0], t.toNat / 2 ^ (64 * i) % 2 ^ 64 = 0 := by
    intro i hi
    have hword : UInt64.ofNat (t.toNat >>> (64 * i)) = 0 := by
      by_contra hne
      exact hzero ⟨_, List.mem_map_of_mem hi, hne⟩
    rw [← Nat.shiftRight_eq_div_pow, ← UInt64.toNat_ofNat', hword]
    rfl
  have h3 := hwords 3 (by decide)
  have h2 := hwords 2 (by decide)
  have h1 := hwords 1 (by decide)
  have h0 := hwords 0 (by decide)
  have hlt := t.isLt
  unfold size at hlt
  omega

theorem between_toFloat {t : Target} (h : t.toNat ≠ 0) : Between (-52) 284 t.toFloat := by
  have hfold : t.toFloat = ([3, 2, 1, 0].map fun i : Nat => UInt64.ofNat (t.toNat >>> (64 * i))).foldl addWord 0 := by
    unfold toFloat addWord
    rw [List.foldl_map]
  rw [hfold]
  exact (between_foldl_words (exists_word_ne_zero h) (by simp)).mono (by decide) (by simp)

/-! ### Difficulties -/

variable {t : Target}

set_option maxRecDepth 2000 in
private theorem between_highest : Between 171 171 highest.toFloat := by decide

private theorem between_shareMultiplier (chain : Chain) : Between (-36) (-36) chain.shareMultiplier := by
  cases chain with
  | dogecoin => decide
  | litecoin => decide

theorem between_difficulty (h : t.toNat ≠ 0) (chain : Chain) :
    Between (-150) 190 (t.difficulty * chain.shareMultiplier) := by
  have hquotient := between_highest.div (between_toFloat h) (by decide) (by decide)
  rw [difficulty, if_neg h]
  exact (hquotient.mul (between_shareMultiplier chain) (by decide) (by decide)).mono (by decide) (by decide)

/-- The difficulty of target zero has no digits. -/
theorem rereadFloat_difficulty_zero (h : t.toNat = 0) (chain : Chain) :
    Json.rereadFloat (t.difficulty * chain.shareMultiplier) = some .null := by
  have hparts : parts (1 / 0 * chain.shareMultiplier) = none := by
    cases chain with
    | dogecoin => decide
    | litecoin => decide
  rw [difficulty, if_pos h]
  exact Json.rereadFloat_of_none hparts

/-- What is read of a difficulty, as miners see it: a number, or null for that of target zero. -/
theorem exists_rereadFloat_difficulty (t : Target) (chain : Chain) :
    ∃ v, Json.rereadFloat (t.difficulty * chain.shareMultiplier) = some v ∧
      (t.toNat = 0 → v = .null) ∧ (t.toNat ≠ 0 → ∃ x, v = .float x) := by
  by_cases h : t.toNat = 0
  · exact ⟨.null, rereadFloat_difficulty_zero h chain, fun _ => rfl, fun hne => absurd h hne⟩
  · obtain ⟨x, hx⟩ := Json.exists_rereadFloat_of_between (between_difficulty h chain) (by decide)
    exact ⟨.float x, hx, fun hzero => absurd hzero h, fun _ => ⟨x, rfl⟩⟩

end Target

end MergedMining
