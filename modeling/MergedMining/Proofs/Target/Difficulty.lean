import MergedMining.Proofs.Decimal.Value
import MergedMining.Target

/-!
# Targets of difficulties

The target of a difficulty is the highest target divided by it, as exact numbers, rounded down once and cut off at the
greatest target (`exists_ofDifficulty_eq`).  So work is enough for it exactly if its product with the difficulty is at
most the highest target (`le_iff_mul_le`).
-/

namespace MergedMining

namespace Target

open Binary64

variable {d : Float} {p : Parts} {t : Target}

/-! ### The three ranges of exponents -/

private theorem toNat_highest : highest.toNat = 0xffff * 2 ^ 208 := by decide

private theorem highest_lt : highest.toNat < 2 ^ 256 := highest.isLt

private theorem toNat_ofNat_of_lt {n : Nat} (h : n < size) : (ofNat n).toNat = n := Nat.mod_eq_of_lt h

/-- Shifted left by less than 256 places the highest target keeps all its bits. -/
theorem toNat_shiftedHighest {shift : Nat} (h : shift < 256) :
    (shiftedHighest shift).toNat = highest.toNat * 2 ^ shift := by
  have hfits : highest.toNat * 2 ^ shift < 2 ^ 512 := calc
    highest.toNat * 2 ^ shift < 2 ^ 256 * 2 ^ shift := Nat.mul_lt_mul_of_pos_right highest_lt (Nat.two_pow_pos _)
    _ = 2 ^ (256 + shift) := (Nat.pow_add ..).symm
    _ ≤ 2 ^ 512 := by gcongr <;> omega
  have hhighest : highest.toNat % 2 ^ 512 = highest.toNat :=
    Nat.mod_eq_of_lt (Nat.lt_of_le_of_lt (Nat.le_mul_of_pos_right _ (Nat.two_pow_pos shift)) hfits)
  simp only [shiftedHighest, BitVec.toNat_shiftLeft, BitVec.toNat_ofNat, Nat.shiftLeft_eq, hhighest,
    Nat.mod_eq_of_lt hfits]

/-- Shifted right the highest target loses no bit, unless it is smaller than the difficulty. -/
theorem highest_shiftRight (h : Positive d p) (hexponent : 0 ≤ p.exponent) :
    highest.toNat >>> p.exponent.toNat * 2 ^ p.exponent.toNat = highest.toNat ∨
      (highest.toNat : ℚ) < p.mantissa * 2 ^ p.exponent := by
  obtain ⟨n, hn⟩ := Int.eq_ofNat_of_zero_le hexponent
  rw [hn, Int.toNat_natCast, zpow_natCast, Nat.shiftRight_eq_div_pow, toNat_highest]
  by_cases hsmall : n ≤ 208
  · exact .inl (Nat.div_mul_cancel (Dvd.dvd.mul_left (pow_dvd_pow 2 hsmall) _))
  · have hfull : 2 ^ 52 ≤ p.mantissa := h.full.resolve_right (by omega)
    have hgreat : 0xffff * 2 ^ 208 < p.mantissa * 2 ^ n := calc
      0xffff * 2 ^ 208 < 2 ^ 52 * 2 ^ 208 := by decide
      _ ≤ p.mantissa * 2 ^ n := Nat.mul_le_mul hfull (Nat.pow_le_pow_right (by decide) (by omega))
    exact .inr (by exact_mod_cast hgreat)

/-- The target of a positive double: the exact quotient, rounded down once, and at most the greatest target. -/
theorem exists_ofDifficulty_eq (h : Positive d p) :
    ∃ t, ofDifficulty d = .ok t ∧
      t.toNat = min (size - 1) ⌊(highest.toNat : ℚ) / (p.mantissa * 2 ^ p.exponent)⌋₊ := by
  have hhighest : highest.toNat < size := highest.isLt
  have hpos := h.pos
  unfold ofDifficulty
  rw [h.parts_eq]
  dsimp only
  rw [if_neg (by simp [h.sign, hpos.ne'])]
  by_cases hexponent : 0 ≤ p.exponent
  · rw [if_pos hexponent]
    obtain ⟨n, hn⟩ := Int.eq_ofNat_of_zero_le hexponent
    have hden : (p.mantissa : ℚ) * 2 ^ p.exponent = (p.mantissa * 2 ^ n : Nat) := by
      rw [hn, zpow_natCast]
      push_cast
      rfl
    have hquotient : highest.toNat >>> p.exponent.toNat / p.mantissa = highest.toNat / (p.mantissa * 2 ^ n) := by
      rw [hn, Int.toNat_natCast, Nat.shiftRight_eq_div_pow, Nat.div_div_eq_div_mul, Nat.mul_comm]
    have hle := Nat.div_le_self highest.toNat (p.mantissa * 2 ^ n)
    refine ⟨_, rfl, ?_⟩
    rw [hden, Nat.floor_div_eq_div, hquotient, toNat_ofNat_of_lt (by omega), Nat.min_eq_right (by omega)]
  · rw [if_neg hexponent]
    obtain ⟨k, hk⟩ : ∃ k : Nat, p.exponent = -k := ⟨p.exponent.natAbs, by omega⟩
    have hratio : (highest.toNat : ℚ) / (p.mantissa * 2 ^ p.exponent) =
        (highest.toNat * 2 ^ k : Nat) / p.mantissa := by
      rw [hk, zpow_neg, zpow_natCast, ← div_div, div_inv_eq_mul]
      push_cast
      ring
    have hshift : p.exponent.natAbs = k := by omega
    rw [hratio, Nat.floor_div_eq_div, hshift]
    split
    · next hfar =>
      have hsaturated : (size - 1) * p.mantissa ≤ highest.toNat * 2 ^ k := calc
        (size - 1) * p.mantissa ≤ 2 ^ 256 * highest.toNat := Nat.mul_le_mul (by decide) (h.lt.le.trans (by decide))
        _ = highest.toNat * 2 ^ 256 := Nat.mul_comm ..
        _ ≤ highest.toNat * 2 ^ k := Nat.mul_le_mul_left _ (Nat.pow_le_pow_right (by decide) hfar)
      exact ⟨max, rfl, (Nat.min_eq_left ((Nat.le_div_iff_mul_le hpos).2 hsaturated)).symm⟩
    · next hnear =>
      have hlt : min (size - 1) (highest.toNat * 2 ^ k / p.mantissa) < size := by
        have := Nat.min_le_left (size - 1) (highest.toNat * 2 ^ k / p.mantissa)
        omega
      refine ⟨_, rfl, ?_⟩
      rw [toNat_shiftedHighest (by omega)]
      exact toNat_ofNat_of_lt hlt

/-- A double has no target exactly if it is not finite or not above zero. -/
theorem ofDifficulty_eq_error_iff {e : EncodingFault} :
    ofDifficulty d = .error e ↔ e = .difficulty d ∧ ¬(d.isFinite = true ∧ 0 < d) := by
  by_cases hgood : d.isFinite = true ∧ 0 < d
  · obtain ⟨p, hp⟩ := isFinite_and_pos_iff.1 hgood
    obtain ⟨t, ht, -⟩ := exists_ofDifficulty_eq hp
    rw [ht]
    exact iff_of_false nofun fun h => h.2 hgood
  · have herror : ofDifficulty d = .error (.difficulty d) := by
      unfold ofDifficulty
      split
      · rfl
      · next p hparts =>
        refine if_pos (not_not.1 fun hnot => hgood (isFinite_and_pos_iff.2 ⟨p, ?_⟩))
        obtain ⟨hsign, hmantissa⟩ := not_or.1 hnot
        exact positive_of_parts hparts (Bool.eq_false_iff.2 hsign) hmantissa
    rw [herror]
    constructor
    · rintro ⟨⟩
      exact ⟨rfl, hgood⟩
    · rintro ⟨rfl, -⟩
      rfl

/-! ### What the quotient means for work -/

/-- The target of a double, and the parts it was computed from. -/
theorem positive_of_ofDifficulty (h : ofDifficulty d = .ok t) :
    ∃ p, Positive d p ∧ t.toNat = min (size - 1) ⌊(highest.toNat : ℚ) / (p.mantissa * 2 ^ p.exponent)⌋₊ := by
  have hgood : d.isFinite = true ∧ 0 < d := not_not.1 fun hbad => by
    rw [ofDifficulty_eq_error_iff.2 ⟨rfl, hbad⟩] at h
    cases h
  obtain ⟨p, hp⟩ := isFinite_and_pos_iff.1 hgood
  obtain ⟨t', ht', heq⟩ := exists_ofDifficulty_eq hp
  rw [h] at ht'
  cases ht'
  exact ⟨p, hp, heq⟩

/-- Work is enough for a target exactly if the highest target is at least the product of the two. -/
theorem le_iff_mul_le {q : ℚ} (hq : 0 < q) (ht : t.toNat = min (size - 1) ⌊(highest.toNat : ℚ) / q⌋₊) (s : Target) :
    s ≤ t ↔ (s.toNat : ℚ) * q ≤ highest.toNat := by
  have hs : s.toNat ≤ size - 1 := Nat.le_sub_one_of_lt s.isLt
  calc s ≤ t ↔ s.toNat ≤ min (size - 1) ⌊(highest.toNat : ℚ) / q⌋₊ := by rw [← ht]; rfl
    _ ↔ s.toNat ≤ ⌊(highest.toNat : ℚ) / q⌋₊ := by rw [le_min_iff, and_iff_right hs]
    _ ↔ (s.toNat : ℚ) ≤ highest.toNat / q := Nat.le_floor_iff (by positivity)
    _ ↔ (s.toNat : ℚ) * q ≤ highest.toNat := le_div_iff₀ hq

/-- The target of a double is the highest target divided by the number that the double stands for.  The quotient
is exact: neither shift loses a bit that it depends on, and the divisor is not zero. -/
theorem ofDifficulty_exact (d : Float) :
    (∀ e, ofDifficulty d = .error e ↔ e = .difficulty d ∧ ¬(d.isFinite = true ∧ 0 < d)) ∧
      ∀ t, ofDifficulty d = .ok t → ∃ q p, value? d = some q ∧ 0 < q ∧ parts d = some p ∧
        t.toNat = min (size - 1) ⌊(highest.toNat : ℚ) / q⌋₊ ∧
        (∀ s : Target, s ≤ t ↔ (s.toNat : ℚ) * q ≤ highest.toNat) ∧
        (∀ d' t', d ≤ d' → ofDifficulty d' = .ok t' → t' ≤ t) ∧
        p.mantissa ≠ 0 ∧
        (0 ≤ p.exponent → highest.toNat >>> p.exponent.toNat * 2 ^ p.exponent.toNat = highest.toNat ∨
          (highest.toNat : ℚ) < q) ∧
        (p.exponent < 0 → p.exponent.natAbs < 256 →
          (shiftedHighest p.exponent.natAbs).toNat = highest.toNat * 2 ^ p.exponent.natAbs) := by
  refine ⟨fun e => ofDifficulty_eq_error_iff, fun t ht => ?_⟩
  obtain ⟨p, hp, heq⟩ := positive_of_ofDifficulty ht
  have hmantissa : (0 : ℚ) < p.mantissa := by exact_mod_cast hp.pos
  have hq : (0 : ℚ) < p.mantissa * 2 ^ p.exponent := by positivity
  refine ⟨_, p, hp.value?_eq, hq, hp.parts_eq, heq, le_iff_mul_le hq heq, ?_, hp.pos.ne', highest_shiftRight hp,
    fun _ => toNat_shiftedHighest⟩
  intro d' t' hle ht'
  obtain ⟨p', hp', heq'⟩ := positive_of_ofDifficulty ht'
  have hvalue := hp.value_le hp' hle
  show t'.toNat ≤ t.toNat
  rw [heq, heq']
  gcongr

theorem ofDifficulty_exact_sample : ∃ t t' : Target, ofDifficulty 0.25 = .ok t ∧ ofDifficulty 3 = .ok t' ∧
    t.toNat = 4 * highest.toNat ∧ t' ≤ t ∧ ∀ s : Target, s ≤ t ↔ (s.toNat : ℚ) * (1 / 4) ≤ highest.toNat := by
  obtain ⟨_, hp⟩ := isFinite_and_pos_iff.1 (by decide : (0.25 : Float).isFinite = true ∧ 0 < (0.25 : Float))
  obtain ⟨_, hp'⟩ := isFinite_and_pos_iff.1 (by decide : (3 : Float).isFinite = true ∧ 0 < (3 : Float))
  obtain ⟨t, ht, -⟩ := exists_ofDifficulty_eq hp
  obtain ⟨t', ht', -⟩ := exists_ofDifficulty_eq hp'
  obtain ⟨q, _, hvalue, -, -, heq, hle, hmono, -⟩ := (ofDifficulty_exact 0.25).2 t ht
  obtain rfl : q = 1 / 4 := Option.some_inj.1 (hvalue.symm.trans (by decide +kernel))
  exact ⟨t, t', ht, ht', heq.trans (by decide +kernel), hmono 3 t' (by decide) ht', hle⟩

end Target

end MergedMining
