import MergedMining.Proofs.Decimal.Size
import MergedMining.Proofs.Decimal.Value

/-!
# Quotients that may vanish

A positive double that is divided by `2 ^ 16` is rounded to a positive double again, where need be to one of
fewer digits, unless the quotient is at most half of the least double (`div_pos_iff`).
-/

namespace MergedMining

namespace Binary64

open Float.Model Float.Model.UnpackedFloat

variable {m : Nat} {e : Int} {x : Float} {p : Parts}

theorem Positive.exponent_le (h : Positive x p) : p.exponent ≤ 971 := by
  have hparts := h.parts_eq
  have hlt : (fields x.toBits).exponent < 2048 := Nat.mod_lt _ (by decide)
  rw [parts, partsOfBits] at hparts
  split at hparts
  · cases hparts
  · next hlast =>
    split at hparts
    · cases hparts
      show (-1074 : Int) ≤ 971
      decide
    · cases hparts
      dsimp only
      omega

/-! ### The least exponent -/

/-- A number with few digits is kept at the least exponent. -/
theorem unpack_pack_least (hm : 0 < m) (hlt : m < 2 ^ 52) :
    (Float.Model.pack (.finite .positive m (-1074) hm)).unpack = .finite .positive m (-1074) hm := by
  have hlog : ¬ m.log2 + 1 = Format.binary64.mantissaBits := by
    have hless : m.log2 < 52 := (Nat.log2_lt hm.ne').2 hlt
    have hbits : Format.binary64.mantissaBits = 53 := rfl
    omega
  have hpack : UnpackedFloat.pack Format.binary64 (.finite .positive m (-1074) hm) =
      packComponents Format.binary64 .positive (0#11) (BitVec.ofNat 52 m) := by
    unfold UnpackedFloat.pack
    dsimp only
    exact (if_neg (by decide)).trans (if_neg hlog)
  have hnat : (BitVec.ofNat 52 m).toNat = m := by
    rw [BitVec.toNat_ofNat, Nat.mod_eq_of_lt hlt]
  have hne : BitVec.ofNat 52 m ≠ 0#52 := by
    intro heq
    rw [heq, BitVec.toNat_zero] at hnat
    omega
  have hones : (0#11 : BitVec 11) ≠ -1#11 := by decide
  show UnpackedFloat.unpack Format.binary64 (UnpackedFloat.pack Format.binary64 (.finite .positive m (-1074) hm)) = _
  rw [hpack]
  simp only [UnpackedFloat.unpack, unpackExponent_packComponents, unpackMantissa_packComponents, unpackSign_positive]
  refine (if_neg hones).trans ((if_pos trivial).trans ((dif_neg hne).trans ?_))
  exact UnpackedFloat.finite.injEq .. ▸ ⟨rfl, hnat, rfl⟩

private theorem shiftToTargetExponent_least (accuracy : Accuracy) (hlt : m < 2 ^ 53) :
    shiftToTargetExponent Format.binary64 m (-1074) accuracy =
      (ExtendedMantissa.ofMantissaAndAccuracy m accuracy, -1074) := by
  have hlog : m.log2 < 53 := by
    by_cases hzero : m = 0
    · simp [hzero]
    · exact (Nat.log2_lt hzero).2 hlt
  have htarget : Format.binary64.targetExponent (totalExponent m (-1074)) = -1074 := by
    have hmin : Format.binary64.minExponent = -1074 := rfl
    have hbits : (Format.binary64.mantissaBits : Int) = 53 := rfl
    rw [Format.targetExponent, totalExponent, hmin, hbits]
    omega
  rw [shiftToTargetExponent, htarget]
  rfl

private theorem roundedMantissa_least_le (accuracy : Accuracy) {r : Nat}
    (hr : (ExtendedMantissa.ofMantissaAndAccuracy m accuracy).roundedMantissa = r) : r ≤ m + 1 := by
  have hmantissa : (ExtendedMantissa.ofMantissaAndAccuracy m accuracy).mantissa = m := by
    rcases accuracy with _ | _ | _ | _ <;> rfl
  have hbound := (roundedMantissa_bounds (ExtendedMantissa.ofMantissaAndAccuracy m accuracy)).2
  rwa [hr, hmantissa] at hbound

/-- A number with few digits is rounded once at the least exponent. -/
theorem roundWithAccuracy_least (accuracy : Accuracy) (hlt : m < 2 ^ 52) {r : Nat}
    (hr : (ExtendedMantissa.ofMantissaAndAccuracy m accuracy).roundedMantissa = r) :
    roundWithAccuracy Format.binary64 .positive m (-1074) accuracy =
      if h : r = 0 then .zero .positive else .finite .positive r (-1074) (Nat.pos_of_ne_zero h) := by
  have hle := roundedMantissa_least_le accuracy hr
  rw [roundWithAccuracy, shiftToTargetExponent_least accuracy (by omega)]
  dsimp only
  rw [hr, shiftToTargetExponent_least .exact (by omega)]
  rfl

/-- A quotient is rounded to zero exactly if it is at most one half. -/
theorem roundedMantissa_eq_zero_iff {num den : Nat} :
    (ExtendedMantissa.ofMantissaAndAccuracy m (accuracyOfFraction num den)).roundedMantissa = 0 ↔
      m = 0 ∧ 2 * num ≤ den := by
  unfold accuracyOfFraction
  by_cases hzero : num = 0
  · rw [if_pos hzero]
    show m = 0 ↔ _
    omega
  · rw [if_neg hzero]
    rcases hcompare : compare (2 * num) den with _ | _ | _
    · have hlt := Nat.compare_eq_lt.1 hcompare
      show m = 0 ↔ _
      omega
    · have heq := Nat.compare_eq_eq.1 hcompare
      show m + m % 2 = 0 ↔ _
      omega
    · have hgt := Nat.compare_eq_gt.1 hcompare
      show m + 1 = 0 ↔ _
      omega

/-- What is rounded at the least exponent is positive unless it is rounded to zero. -/
theorem exists_unpack_least_iff (accuracy : Accuracy) (hlt : m < 2 ^ 52) :
    (∃ n f h, (Float.Model.pack (roundWithAccuracy Format.binary64 .positive m (-1074) accuracy)).unpack =
      .finite .positive n f h) ↔ (ExtendedMantissa.ofMantissaAndAccuracy m accuracy).roundedMantissa ≠ 0 := by
  obtain ⟨r, hr⟩ : ∃ r, (ExtendedMantissa.ofMantissaAndAccuracy m accuracy).roundedMantissa = r := ⟨_, rfl⟩
  have hle := roundedMantissa_least_le accuracy hr
  rw [roundWithAccuracy_least accuracy hlt hr, hr]
  by_cases hzero : r = 0
  · rw [dif_pos hzero]
    exact iff_of_false (by rintro ⟨_, _, _, h⟩; cases h) (not_not.2 hzero)
  · rw [dif_neg hzero]
    refine iff_of_true ?_ hzero
    by_cases hfew : r < 2 ^ 52
    · exact ⟨_, _, _, unpack_pack_least (Nat.pos_of_ne_zero hzero) hfew⟩
    · -- rounding up has given it its fifty-third digit
      have hspans : Spans (-1074) (-1074) (.finite .positive r (-1074) (Nat.pos_of_ne_zero hzero)) :=
        ⟨(Nat.log2_eq_iff hzero).2 ⟨by omega, by omega⟩, le_rfl, le_rfl⟩
      exact ⟨_, _, _, hspans.unpack_pack le_rfl (by decide)⟩

/-! ### Division -/

/-- The dividend as it is brought to the exponent of its quotient by `2 ^ 16`, which is `n / 2 ^ 52` times
`2 ^ t`.  Above the least exponent the quotient has enough digits. -/
private structure Aligned (m : Nat) (e : Int) (n : Nat) (t : Int) : Prop where
  value : (m : ℚ) * 2 ^ e = n * 2 ^ (t - 36)
  low : -1074 ≤ t
  high : t ≤ 954
  below : n < 2 ^ 106
  full : -1074 < t → 2 ^ 105 ≤ n

private theorem aligned_shiftLeft (h : Positive x p) {t : Int}
    (ht : t = max (p.exponent + p.mantissa.log2 - 69) (-1074)) {k : Nat}
    (hk : (k : Int) = p.exponent + 36 - t) : Aligned p.mantissa p.exponent (p.mantissa <<< k) t := by
  have hexponent := h.exponent_le
  obtain ⟨hlow, hhigh⟩ := (Nat.log2_eq_iff h.pos.ne').1 (rfl : p.mantissa.log2 = p.mantissa.log2)
  have hlog : p.mantissa.log2 < 53 := (Nat.log2_lt h.pos.ne').2 h.lt
  rw [Nat.shiftLeft_eq]
  refine ⟨?value, by omega, by omega, ?below, fun habove => ?full⟩
  case value =>
    rw [Nat.cast_mul, Nat.cast_pow, Nat.cast_ofNat, mul_assoc, ← zpow_natCast, ← zpow_add₀ two_ne_zero]
    congr 2
    omega
  case below =>
    calc p.mantissa * 2 ^ k < 2 ^ (p.mantissa.log2 + 1) * 2 ^ k :=
          Nat.mul_lt_mul_of_pos_right hhigh (Nat.two_pow_pos k)
      _ = 2 ^ (p.mantissa.log2 + 1 + k) := (Nat.pow_add ..).symm
      _ ≤ 2 ^ 106 := Nat.pow_le_pow_right (by decide) (by omega)
  case full =>
    have hsum : p.mantissa.log2 + k = 105 := by omega
    calc 2 ^ 105 = 2 ^ p.mantissa.log2 * 2 ^ k := by rw [← hsum, Nat.pow_add]
      _ ≤ p.mantissa * 2 ^ k := Nat.mul_le_mul_right _ hlow

private theorem exists_divCore_eq (h : Positive x p) : ∃ n t, Aligned p.mantissa p.exponent n t ∧
    divCore Format.binary64 p.mantissa p.exponent (2 ^ 52) (-36) =
      (n / 2 ^ 52, t, accuracyOfFraction (n % 2 ^ 52) (2 ^ 52)) := by
  have hlow := h.low
  have hlog : p.mantissa.log2 < 53 := (Nat.log2_lt h.pos.ne').2 h.lt
  obtain ⟨t, ht⟩ : ∃ t, t = max (p.exponent + p.mantissa.log2 - 69) (-1074) := ⟨_, rfl⟩
  obtain ⟨k, hk⟩ : ∃ k : Nat, (k : Int) = p.exponent + 36 - t := ⟨_, Int.toNat_of_nonneg (by omega)⟩
  refine ⟨p.mantissa <<< k, t, aligned_shiftLeft h ht hk, ?_⟩
  have hmin : Format.binary64.minExponent = -1074 := rfl
  have hbits : (Format.binary64.mantissaBits : Int) = 53 := rfl
  have hlog2 : (2 ^ 52 : Nat).log2 = 52 := Nat.log2_two_pow
  have htarget : Format.binary64.targetExponent
      (totalExponent p.mantissa p.exponent - totalExponent (2 ^ 52) (-36)) = t := by
    rw [Format.targetExponent, totalExponent, totalExponent, hmin, hbits, hlog2]
    omega
  have hle : t ≤ p.exponent - -36 := by omega
  have hshift : (p.exponent - -36 - t).toNat = k := by omega
  unfold divCore
  dsimp only
  rw [htarget, min_eq_right hle, hshift]

variable {n : Nat} {t : Int}

/-- A quotient with enough digits is rounded to them, and is far above half of the least double. -/
private theorem Aligned.of_many (h : Aligned m e n t) (hmany : 2 ^ 52 ≤ n / 2 ^ 52) (accuracy : Accuracy) :
    (∃ m' e' h', (Float.Model.pack (roundWithAccuracy Format.binary64 .positive (n / 2 ^ 52) t accuracy)).unpack =
      .finite .positive m' e' h') ∧ (2 : ℚ) ^ (-1059 : Int) < m * 2 ^ e := by
  obtain ⟨hvalue, hlow, hhigh, hbelow, -⟩ := h
  have hlog := (Nat.le_log2 (by omega)).2 hmany
  have hlog' := (Nat.log2_lt (by omega)).2 (show n / 2 ^ 52 < 2 ^ 54 by omega)
  have hspans := spans_roundWithAccuracy (e := t) accuracy hlog (by omega)
  have hunpack := hspans.unpack_pack (by omega) (by omega)
  obtain ⟨m', e', hm', heq, -⟩ := hspans.exists_eq
  refine ⟨⟨m', e', hm', by rw [hunpack, heq]⟩, ?_⟩
  have hn : (2 : ℚ) ^ 104 ≤ n := by exact_mod_cast (by omega : 2 ^ 104 ≤ n)
  calc (2 : ℚ) ^ (-1059 : Int) < 2 ^ (-1006 : Int) := zpow_lt_zpow_right₀ (by norm_num) (by decide)
    _ = 2 ^ 104 * 2 ^ (-1110 : Int) := by rw [← zpow_natCast, ← zpow_add₀ two_ne_zero]; rfl
    _ ≤ n * 2 ^ (t - 36) := by
      gcongr
      · norm_num
      · omega
    _ = m * 2 ^ e := hvalue.symm

/-- At the least exponent the quotient is above one half exactly if its dividend is above `2 ^ 51`. -/
private theorem Aligned.lt_iff (h : Aligned m e n (-1074)) : (2 : ℚ) ^ (-1059 : Int) < m * 2 ^ e ↔ 2 ^ 51 < n := by
  have hsplit : (2 : ℚ) ^ (-1059 : Int) = (2 ^ 51 : Nat) * 2 ^ (-1074 - 36 : Int) := by
    rw [Nat.cast_pow, Nat.cast_ofNat, ← zpow_natCast, ← zpow_add₀ two_ne_zero]
    rfl
  rw [hsplit, h.value, mul_lt_mul_iff_left₀ (by positivity), Nat.cast_lt]

/-- A positive double divided by `2 ^ 16` is positive exactly if the quotient is more than half of the least
double. -/
theorem div_pos_iff (h : Positive x p) :
    (x / 65536).isFinite = true ∧ 0 < x / 65536 ↔ (2 : ℚ) ^ (-1059 : Int) < p.mantissa * 2 ^ p.exponent := by
  obtain ⟨hm, hunpack⟩ := h.unpack_eq
  obtain ⟨n, t, haligned, hcore⟩ := exists_divCore_eq h
  have hdiv : (x / 65536).toModel.unpack =
      (Float.Model.pack (roundWithAccuracy Format.binary64 .positive (n / 2 ^ 52) t
        (accuracyOfFraction (n % 2 ^ 52) (2 ^ 52)))).unpack := by
    have hdivisor : (65536 : Float).toModel.unpack = .finite .positive (2 ^ 52) (-36) (by decide) := rfl
    show (Float.Model.pack (div Format.binary64 x.toModel.unpack (65536 : Float).toModel.unpack)).unpack = _
    rw [hunpack, hdivisor]
    show (Float.Model.pack (let (q, g, acc) := divCore Format.binary64 p.mantissa p.exponent (2 ^ 52) (-36)
      roundWithAccuracy Format.binary64 .positive q g acc)).unpack = _
    rw [hcore]
  rw [isFinite_and_pos_iff_unpack, hdiv]
  by_cases hmany : 2 ^ 52 ≤ n / 2 ^ 52
  · obtain ⟨hexists, hgreat⟩ := haligned.of_many hmany (accuracyOfFraction (n % 2 ^ 52) (2 ^ 52))
    exact iff_of_true hexists hgreat
  · obtain rfl : t = -1074 := by
      by_contra hne
      have hlow := haligned.low
      have hfull := haligned.full (by omega)
      omega
    rw [haligned.lt_iff, exists_unpack_least_iff _ (not_le.1 hmany), Ne, roundedMantissa_eq_zero_iff]
    omega

end Binary64

end MergedMining
