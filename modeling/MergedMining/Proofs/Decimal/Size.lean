import MergedMining.Proofs.Decimal.Value

/-!
# How large doubles are

`Between low high x` says of a positive double that it has all its fifty-three binary digits and how much the
last of them counts for.  Products, quotients and sums of such doubles are again such doubles, a few places
further up or down.
-/

namespace MergedMining

namespace Binary64

open Float.Model Float.Model.UnpackedFloat

/-! ### Rounding -/

/-- A positive number of fifty-three digits, the last of which counts for `2 ^ low` to `2 ^ high`. -/
def Spans (low high : Int) : UnpackedFloat → Prop
  | .finite .positive m e _ => m.log2 = 52 ∧ low ≤ e ∧ e ≤ high
  | _ => False

instance (low high : Int) : (u : UnpackedFloat) → Decidable (Spans low high u)
  | .finite .positive m e _ => inferInstanceAs (Decidable (m.log2 = 52 ∧ low ≤ e ∧ e ≤ high))
  | .finite .negative .. => inferInstanceAs (Decidable False)
  | .infinity _ => inferInstanceAs (Decidable False)
  | .notANumber => inferInstanceAs (Decidable False)
  | .zero _ => inferInstanceAs (Decidable False)

variable {low high low' high' : Int} {u u' : UnpackedFloat} {m : Nat} {e : Int}

theorem spans_finite {h : 0 < m} :
    Spans low high (.finite .positive m e h) ↔ m.log2 = 52 ∧ low ≤ e ∧ e ≤ high := Iff.rfl

theorem Spans.exists_eq (h : Spans low high u) :
    ∃ (m : Nat) (e : Int) (hm : 0 < m), u = .finite .positive m e hm ∧ m.log2 = 52 ∧ low ≤ e ∧ e ≤ high := by
  rcases u with _ | _ | _ | ⟨s, m, e, hm⟩
  · cases h
  · cases h
  · cases h
  · cases s with
    | negative => cases h
    | positive => exact ⟨m, e, hm, rfl, h⟩

theorem Spans.mono (h : Spans low high u) (hlow : low' ≤ low) (hhigh : high ≤ high') : Spans low' high' u := by
  obtain ⟨m, e, hm, rfl, hlog, he, he'⟩ := h.exists_eq
  exact ⟨hlog, by omega, by omega⟩

private theorem shiftRight_mantissa (em : ExtendedMantissa) (k : Nat) :
    (em >>> k).mantissa = em.mantissa / 2 ^ k := by
  induction k generalizing em with
  | zero => exact (Nat.div_one _).symm
  | succ k ih =>
    show (em >>> k).mantissa / 2 = _
    rw [ih, Nat.div_div_eq_div_mul, ← Nat.pow_succ]

theorem roundedMantissa_bounds (em : ExtendedMantissa) :
    em.mantissa ≤ em.roundedMantissa ∧ em.roundedMantissa ≤ em.mantissa + 1 := by
  rcases em with ⟨m, _ | _, _ | _⟩
  · exact ⟨Nat.le_refl _, Nat.le_succ _⟩
  · exact ⟨Nat.le_refl _, Nat.le_succ _⟩
  · show m ≤ m + m % 2 ∧ m + m % 2 ≤ m + 1
    omega
  · exact ⟨Nat.le_succ _, Nat.le_refl _⟩

private theorem targetExponent_eq (hlow : -1074 ≤ e + m.log2 - 52) :
    Format.binary64.targetExponent (totalExponent m e) = e + m.log2 - 52 := by
  have hmin : Format.binary64.minExponent = -1074 := rfl
  have hbits : (Format.binary64.mantissaBits : Int) = 53 := rfl
  rw [Format.targetExponent, totalExponent, hmin, hbits]
  omega

private theorem shiftToTargetExponent_spec (accuracy : Accuracy) (hlow : -1074 ≤ e + m.log2 - 52) :
    (shiftToTargetExponent Format.binary64 m e accuracy).1.mantissa = m / 2 ^ (m.log2 - 52) ∧
      (shiftToTargetExponent Format.binary64 m e accuracy).2 = e + (m.log2 - 52 : Nat) := by
  have hamount : (e + m.log2 - 52 - e).toNat = m.log2 - 52 := by omega
  have hmantissa : (ExtendedMantissa.ofMantissaAndAccuracy m accuracy).mantissa = m := by
    rcases accuracy with _ | _ | _ | _ <;> rfl
  unfold shiftToTargetExponent shiftToExponent
  dsimp only
  rw [targetExponent_eq hlow, hamount, shiftRight_mantissa, hmantissa]
  exact ⟨rfl, rfl⟩

private theorem div_pow_bounds (hlog : 52 ≤ m.log2) :
    2 ^ 52 ≤ m / 2 ^ (m.log2 - 52) ∧ m / 2 ^ (m.log2 - 52) < 2 ^ 53 := by
  have hm : m ≠ 0 := by
    rintro rfl
    simp at hlog
  obtain ⟨k, hk⟩ := Nat.exists_eq_add_of_le hlog
  obtain ⟨hlow, hhigh⟩ := (Nat.log2_eq_iff hm).1 hk
  rw [hk, Nat.add_sub_cancel_left, Nat.le_div_iff_mul_le (Nat.two_pow_pos k),
    Nat.div_lt_iff_lt_mul (Nat.two_pow_pos k)]
  rw [Nat.pow_add] at hlow
  rw [show 52 + k + 1 = 53 + k by omega, Nat.pow_add] at hhigh
  exact ⟨hlow, hhigh⟩

/-- A number with enough digits is rounded to fifty-three of them. -/
theorem spans_roundWithAccuracy (accuracy : Accuracy) (hlog : 52 ≤ m.log2) (hlow : -1074 ≤ e + m.log2 - 52) :
    Spans (e + m.log2 - 52) (e + m.log2 - 51) (roundWithAccuracy Format.binary64 .positive m e accuracy) := by
  obtain ⟨hmantissa, hexponent⟩ := shiftToTargetExponent_spec accuracy hlow
  obtain ⟨hdiv, hdiv'⟩ := div_pow_bounds hlog
  unfold roundWithAccuracy
  obtain ⟨⟨em, e'⟩, hfirst⟩ : ∃ first, first = shiftToTargetExponent Format.binary64 m e accuracy := ⟨_, rfl⟩
  rw [← hfirst] at hmantissa hexponent ⊢
  dsimp only at hmantissa hexponent ⊢
  obtain ⟨hround, hround'⟩ := roundedMantissa_bounds em
  rw [hmantissa] at hround hround'
  generalize em.roundedMantissa = rounded at hround hround' ⊢
  -- rounding up may take one more digit, which is then cut off
  have hcases : rounded.log2 = 52 ∨ rounded = 2 ^ 53 := by
    by_cases hlt : rounded < 2 ^ 53
    · exact .inl ((Nat.log2_eq_iff (by omega)).2 ⟨by omega, hlt⟩)
    · exact .inr (by omega)
  rcases hcases with hfits | rfl
  · obtain ⟨hmantissa', hexponent'⟩ := shiftToTargetExponent_spec (m := rounded) (e := e') .exact (by omega)
    rw [hfits, Nat.sub_self, Nat.pow_zero, Nat.div_one] at hmantissa'
    rw [dif_neg (by rw [hmantissa']; omega), spans_finite, hmantissa', hexponent']
    exact ⟨hfits, by omega, by omega⟩
  · have hlog53 : (2 ^ 53 : Nat).log2 = 53 := Nat.log2_two_pow
    obtain ⟨hmantissa', hexponent'⟩ := shiftToTargetExponent_spec (m := 2 ^ 53) (e := e') .exact (by omega)
    rw [hlog53] at hmantissa' hexponent'
    have hhalf : (2 : Nat) ^ 53 / 2 ^ (53 - 52) = 2 ^ 52 := by norm_num
    rw [hhalf] at hmantissa'
    rw [dif_neg (by rw [hmantissa']; norm_num), spans_finite, hmantissa', hexponent']
    exact ⟨Nat.log2_two_pow, by omega, by omega⟩

/-- The same of a number with any number of digits, zeros being put behind too few of them. -/
theorem spans_round (hm : 0 < m) (hlow : -1074 ≤ e + m.log2 - 52) :
    Spans (e + m.log2 - 52) (e + m.log2 - 51) (UnpackedFloat.round Format.binary64 .positive m e) := by
  unfold UnpackedFloat.round decreaseExponent
  rw [targetExponent_eq hlow]
  dsimp only
  by_cases hlog : 52 ≤ m.log2
  · have hamount : (e - (e + m.log2 - 52)).toNat = 0 := by omega
    rw [hamount, Nat.shiftLeft_zero, Int.natCast_zero, Int.sub_zero]
    exact spans_roundWithAccuracy .exact hlog hlow
  · obtain ⟨k, hk⟩ : ∃ k, k = (e - (e + m.log2 - 52)).toNat := ⟨_, rfl⟩
    rw [← hk]
    have hlog' : (m <<< k).log2 = 52 := by
      obtain ⟨hlow, hhigh⟩ := (Nat.log2_eq_iff (show m ≠ 0 by omega)).1 rfl
      have hsum : m.log2 + k = 52 := by omega
      rw [Nat.log2_eq_iff (by rw [Nat.shiftLeft_eq]; positivity), Nat.shiftLeft_eq, ← hsum,
        show m.log2 + k + 1 = m.log2 + 1 + k by omega, Nat.pow_add, Nat.pow_add 2 (m.log2 + 1)]
      exact ⟨Nat.mul_le_mul_right _ hlow, Nat.mul_lt_mul_of_pos_right hhigh (Nat.two_pow_pos k)⟩
    have hrounded := spans_roundWithAccuracy (e := e - k) .exact (show 52 ≤ (m <<< k).log2 by omega) (by omega)
    rw [hlog'] at hrounded
    exact hrounded.mono (by omega) (by omega)

/-! ### Arithmetic -/

theorem Spans.mul (h : Spans low high u) (h' : Spans low' high' u') (hlow : -1126 ≤ low + low') :
    Spans (low + low' + 52) (high + high' + 54) (mul Format.binary64 u u') := by
  obtain ⟨m, e, hm, rfl, hlog, he, he'⟩ := h.exists_eq
  obtain ⟨n, f, hn, rfl, hlog', hf, hf'⟩ := h'.exists_eq
  obtain ⟨hm1, hm2⟩ := (Nat.log2_eq_iff hm.ne').1 hlog
  obtain ⟨hn1, hn2⟩ := (Nat.log2_eq_iff hn.ne').1 hlog'
  have hmn : m * n ≠ 0 := (Nat.mul_pos hm hn).ne'
  have hlog1 : 104 ≤ (m * n).log2 := by
    rw [Nat.le_log2 hmn]
    calc 2 ^ 104 = 2 ^ 52 * 2 ^ 52 := by norm_num
      _ ≤ m * n := Nat.mul_le_mul hm1 hn1
  have hlog2 : (m * n).log2 < 106 := by
    rw [Nat.log2_lt hmn]
    calc m * n < 2 ^ 53 * 2 ^ 53 := Nat.mul_lt_mul'' hm2 hn2
      _ = 2 ^ 106 := by norm_num
  have hround := spans_roundWithAccuracy (e := e + f) .exact (show 52 ≤ (m * n).log2 by omega) (by omega)
  exact hround.mono (by omega) (by omega)

theorem Spans.div (h : Spans low high u) (h' : Spans low' high' u') (hlow : -1021 ≤ low - high') :
    Spans (low - high' - 53) (high - low' - 51) (div Format.binary64 u u') := by
  obtain ⟨m, e, hm, rfl, hlog, he, he'⟩ := h.exists_eq
  obtain ⟨n, f, hn, rfl, hlog', hf, hf'⟩ := h'.exists_eq
  obtain ⟨hm1, hm2⟩ := (Nat.log2_eq_iff hm.ne').1 hlog
  obtain ⟨hn1, hn2⟩ := (Nat.log2_eq_iff hn.ne').1 hlog'
  have htarget : Format.binary64.targetExponent (totalExponent m e - totalExponent n f) = e - f - 53 := by
    have hmin : Format.binary64.minExponent = -1074 := rfl
    have hbits : (Format.binary64.mantissaBits : Int) = 53 := rfl
    rw [Format.targetExponent, totalExponent, totalExponent, hmin, hbits, hlog, hlog']
    omega
  have hcore : divCore Format.binary64 m e n f =
      ((m <<< 53) / n, e - f - 53, accuracyOfFraction ((m <<< 53) % n) n) := by
    unfold divCore
    dsimp only
    rw [htarget, min_eq_right (by omega), show (e - f - (e - f - 53)).toNat = 53 by omega]
  have hquotient : 2 ^ 52 ≤ (m <<< 53) / n := by
    rw [Nat.le_div_iff_mul_le hn, Nat.shiftLeft_eq]
    exact Nat.mul_le_mul hm1 hn2.le
  have hquotient' : (m <<< 53) / n < 2 ^ 54 := by
    rw [Nat.div_lt_iff_lt_mul hn, Nat.shiftLeft_eq]
    calc m * 2 ^ 53 < 2 ^ 53 * 2 ^ 53 := Nat.mul_lt_mul_of_pos_right hm2 (by decide)
      _ = 2 ^ 54 * 2 ^ 52 := by norm_num
      _ ≤ 2 ^ 54 * n := Nat.mul_le_mul_left _ hn1
  have hne : (m <<< 53) / n ≠ 0 := by omega
  have hlog1 := (Nat.le_log2 hne).2 hquotient
  have hlog2 := (Nat.log2_lt hne).2 hquotient'
  have hround := spans_roundWithAccuracy (e := e - f - 53) (accuracyOfFraction ((m <<< 53) % n) n) hlog1 (by omega)
  show Spans _ _ (let (q, g, acc) := divCore Format.binary64 m e n f
    roundWithAccuracy Format.binary64 .positive q g acc)
  rw [hcore]
  exact hround.mono (by omega) (by omega)

private theorem add_mul_bounds {a b p : Nat} (ha : a < 2 ^ 53) (hb : 2 ^ 52 ≤ b) (hb' : b < 2 ^ 53) (hp : 0 < p) :
    2 ^ 52 * p ≤ a + b * p ∧ a + b * p < 2 ^ 54 * p := by
  have hlow : 2 ^ 52 * p ≤ b * p := Nat.mul_le_mul_right p hb
  have hhigh : b * p < 2 ^ 53 * p := Nat.mul_lt_mul_of_pos_right hb' hp
  have hsmall : a < 2 ^ 53 * p := ha.trans_le (Nat.le_mul_of_pos_right _ hp)
  omega

theorem Spans.add (h : Spans low high u) (h' : Spans low' high' u') (hlow : -1074 ≤ max low low') :
    Spans (max low low') (max high high' + 2) (add Format.binary64 u u') := by
  obtain ⟨m, e, hm, rfl, hlog, he, he'⟩ := h.exists_eq
  obtain ⟨n, f, hn, rfl, hlog', hf, hf'⟩ := h'.exists_eq
  obtain ⟨hm1, hm2⟩ := (Nat.log2_eq_iff hm.ne').1 hlog
  obtain ⟨hn1, hn2⟩ := (Nat.log2_eq_iff hn.ne').1 hlog'
  obtain ⟨i, hi⟩ : ∃ i, i = (e - min e f).toNat := ⟨_, rfl⟩
  obtain ⟨j, hj⟩ : ∃ j, j = (f - min e f).toNat := ⟨_, rfl⟩
  have hzero : i = 0 ∨ j = 0 := by omega
  obtain ⟨k, hk⟩ : ∃ k, k = i + j := ⟨_, rfl⟩
  -- of both numbers one is shifted by `k` places and the other one not at all
  have hsum : 2 ^ (52 + k) ≤ m <<< i + n <<< j ∧ m <<< i + n <<< j < 2 ^ (54 + k) := by
    rw [Nat.shiftLeft_eq, Nat.shiftLeft_eq, Nat.pow_add, Nat.pow_add]
    rcases hzero with hzero | hzero
    · have hj' : j = k := by omega
      rw [hzero, hj', Nat.pow_zero, Nat.mul_one]
      exact add_mul_bounds hm2 hn1 hn2 (Nat.two_pow_pos k)
    · have hi' : i = k := by omega
      rw [hzero, hi', Nat.pow_zero, Nat.mul_one, Nat.add_comm]
      exact add_mul_bounds hn2 hm1 hm2 (Nat.two_pow_pos k)
  have hpos : 0 < m <<< i + n <<< j := lt_of_lt_of_le (Nat.two_pow_pos _) hsum.1
  have hlog1 := (Nat.le_log2 hpos.ne').2 hsum.1
  have hlog2 := (Nat.log2_lt hpos.ne').2 hsum.2
  have hround := spans_round (e := min e f) hpos (by omega)
  have hadd : Float.Model.UnpackedFloat.add Format.binary64 (.finite .positive m e hm) (.finite .positive n f hn) =
      UnpackedFloat.round Format.binary64 .positive (m <<< i + n <<< j) (min e f) := by
    show UnpackedFloat.normalize Format.binary64
      ((m <<< (e - min e f).toNat : Nat) + (n <<< (f - min e f).toNat : Nat) : Int) (min e f) .positive = _
    rw [← hi, ← hj, UnpackedFloat.normalize, ← Int.natCast_add, Int.compare_eq_gt.2 (by omega), Int.toNat_natCast]
  rw [hadd]
  exact hround.mono (by omega) (by omega)

/-! ### Packing -/

theorem unpackSign_positive (exponent : BitVec 11) (mantissa : BitVec 52) :
    unpackSign (packComponents Format.binary64 .positive exponent mantissa) = 0#1 := by
  refine BitVec.eq_of_getLsbD_eq fun i hi => ?_
  obtain rfl : i = 0 := by omega
  simp only [unpackSign, packComponents, Sign.toBitVec, BitVec.getLsbD_cast, BitVec.getLsbD_extractLsb]
  show (decide _ && ((0#1 ++ exponent : BitVec 12) ++ mantissa).getLsbD 63) = false
  rw [BitVec.getLsbD_append, BitVec.getLsbD_append]
  rfl

private theorem toNat_ofNat_append (hm1 : 2 ^ 52 ≤ m) (hm2 : m < 2 ^ 53) : (1#1 ++ BitVec.ofNat 52 m).toNat = m := by
  rw [BitVec.toNat_append, ← Nat.shiftLeft_add_eq_or_of_lt (BitVec.isLt _), BitVec.toNat_ofNat, Nat.shiftLeft_eq]
  show 1 * 2 ^ 52 + m % 2 ^ 52 = m
  omega

private theorem ofNat_exponent {biased : Nat} (hpos : 0 < biased) (hlt : biased < 2047) :
    (BitVec.ofNat 11 biased).toNat = biased ∧ BitVec.ofNat 11 biased ≠ -1#11 ∧ BitVec.ofNat 11 biased ≠ 0#11 := by
  have hnat : (BitVec.ofNat 11 biased).toNat = biased := by
    rw [BitVec.toNat_ofNat, Nat.mod_eq_of_lt (by omega)]
  refine ⟨hnat, fun heq => ?_, fun heq => ?_⟩
  · rw [heq] at hnat
    have hones : (-1#11).toNat = 2047 := by decide
    omega
  · rw [heq, BitVec.toNat_zero] at hnat
    omega

private theorem pack_finite (hm : 0 < m) (hlog : m.log2 = 52) {biased : Nat} (hlt : biased < 2047)
    (hbiased : biased = (e + 1075).toNat) : UnpackedFloat.pack Format.binary64 (.finite .positive m e hm) =
      packComponents Format.binary64 .positive (BitVec.ofNat 11 biased) (BitVec.ofNat 52 m) := by
  have hbits : Format.binary64.mantissaBits = 53 := rfl
  have hbias : Format.binary64.exponentBias = 1023 := rfl
  have hsum : (e + (1023 : Nat) + (52 : Nat)).toNat = biased := by omega
  have hfinite : ¬ 2 ^ 11 ≤ biased + 1 := by omega
  unfold UnpackedFloat.pack
  dsimp only
  rw [hbias, hbits, hsum]
  exact (if_neg hfinite).trans (if_pos (by rw [hlog]))

private theorem unpack_components {biased : Nat} (hpos : 0 < biased) (hlt : biased < 2047) (hm1 : 2 ^ 52 ≤ m)
    (hm2 : m < 2 ^ 53) : UnpackedFloat.unpack Format.binary64
      (packComponents Format.binary64 .positive (BitVec.ofNat 11 biased) (BitVec.ofNat 52 m)) =
        .finite .positive m ((biased : Int) - 1075) (by omega) := by
  obtain ⟨hexponent, hones, hzero⟩ := ofNat_exponent hpos hlt
  have hmantissa := toNat_ofNat_append hm1 hm2
  have hbias : (Format.binary64.exponentBias : Int) + (52 : Nat) = 1075 := rfl
  simp only [UnpackedFloat.unpack, unpackExponent_packComponents, unpackMantissa_packComponents, unpackSign_positive,
    hones, hzero, if_false, hexponent, hbias]
  exact UnpackedFloat.finite.injEq .. ▸ ⟨rfl, hmantissa, rfl⟩

/-- A number that has the digits of a double is kept as a double. -/
theorem Spans.unpack_pack (h : Spans low high u) (hlow : -1074 ≤ low) (hhigh : high ≤ 971) :
    (Float.Model.pack u).unpack = u := by
  obtain ⟨m, e, hm, rfl, hlog, he, he'⟩ := h.exists_eq
  obtain ⟨hm1, hm2⟩ := (Nat.log2_eq_iff hm.ne').1 hlog
  obtain ⟨biased, hbiased⟩ : ∃ biased, biased = (e + 1075).toNat := ⟨_, rfl⟩
  show UnpackedFloat.unpack Format.binary64 (UnpackedFloat.pack Format.binary64 (.finite .positive m e hm)) = _
  rw [pack_finite hm hlog (by omega) hbiased, unpack_components (by omega) (by omega) hm1 hm2]
  exact UnpackedFloat.finite.injEq .. ▸ ⟨rfl, rfl, by omega⟩

/-! ### Doubles -/

/-- A positive double with fifty-three digits, the last of which counts for `2 ^ low` to `2 ^ high`. -/
def Between (low high : Int) (x : Float) : Prop := Spans low high x.toModel.unpack

instance (low high : Int) (x : Float) : Decidable (Between low high x) :=
  inferInstanceAs (Decidable (Spans low high x.toModel.unpack))

variable {x y : Float}

theorem Between.mono (h : Between low high x) (hlow : low' ≤ low) (hhigh : high ≤ high') : Between low' high' x :=
  Spans.mono h hlow hhigh

theorem Spans.between (h : Spans low high u) (hlow : -1074 ≤ low) (hhigh : high ≤ 971) :
    Between low high (.ofModel (Float.Model.pack u)) := by
  show Spans low high (Float.Model.pack u).unpack
  rwa [h.unpack_pack hlow hhigh]

theorem Between.mul (h : Between low high x) (h' : Between low' high' y) (hlow : -1126 ≤ low + low')
    (hhigh : high + high' ≤ 917) : Between (low + low' + 52) (high + high' + 54) (x * y) :=
  (Spans.mul h h' hlow).between (by omega) (by omega)

theorem Between.div (h : Between low high x) (h' : Between low' high' y) (hlow : -1021 ≤ low - high')
    (hhigh : high - low' ≤ 1022) : Between (low - high' - 53) (high - low' - 51) (x / y) :=
  (Spans.div h h' hlow).between (by omega) (by omega)

theorem Between.add (h : Between low high x) (h' : Between low' high' y) (hlow : -1074 ≤ max low low')
    (hhigh : max high high' ≤ 969) : Between (max low low') (max high high' + 2) (x + y) :=
  (Spans.add h h' hlow).between (by omega) (by omega)

theorem Between.zero_mul (h : Between low high x) : 0 * x = 0 := by
  have hmul : UnpackedFloat.mul Format.binary64 (.zero .positive) x.toModel.unpack = .zero .positive := by
    obtain ⟨m, e, hm, heq, -⟩ := Spans.exists_eq h
    rw [heq]
    rfl
  show Float.ofModel (Float.Model.pack (UnpackedFloat.mul Format.binary64 (0 : Float).toModel.unpack
    x.toModel.unpack)) = _
  rw [unpack_zero, hmul]
  rfl

/-- A double is added to nothing. -/
theorem Between.zero_add (h : Between low high x) (hlow : -1074 ≤ low) (hhigh : high ≤ 971) :
    Between low high (0 + x) := by
  have hadd : UnpackedFloat.add Format.binary64 (0 : Float).toModel.unpack x.toModel.unpack =
      x.toModel.unpack := by
    obtain ⟨m, e, hm, heq, -⟩ := Spans.exists_eq h
    rw [unpack_zero, heq]
    rfl
  refine Spans.between ?_ hlow hhigh
  rw [hadd]
  exact h

/-- Nothing is added to a double. -/
theorem Between.add_zero (h : Between low high x) (hlow : -1074 ≤ low) (hhigh : high ≤ 971) :
    Between low high (x + 0) := by
  have hadd : UnpackedFloat.add Format.binary64 x.toModel.unpack (0 : Float).toModel.unpack =
      x.toModel.unpack := by
    obtain ⟨m, e, hm, heq, -⟩ := Spans.exists_eq h
    rw [unpack_zero, heq]
    rfl
  refine Spans.between ?_ hlow hhigh
  rw [hadd]
  exact h

theorem Between.isInf_eq (h : Between low high x) : x.isInf = false := by
  obtain ⟨m, e, hm, heq, -⟩ := Spans.exists_eq h
  show x.toModel.unpack.isInf = false
  rw [heq]
  rfl

theorem Between.zero_le (h : Between low high x) : 0 ≤ x := by
  obtain ⟨m, e, hm, heq, -⟩ := Spans.exists_eq h
  have hle : UnpackedFloat.le (0 : Float).toModel.unpack x.toModel.unpack = true := by
    rw [unpack_zero, heq]
    rfl
  exact decide_eq_true hle

theorem between_toFloat {n : UInt64} (h : n ≠ 0) : Between (-52) 12 n.toFloat := by
  have hpos : 0 < n.toNat := Nat.pos_of_ne_zero fun heq => h (UInt64.toNat_inj.1 heq)
  have hlog : n.toNat.log2 < 64 := (Nat.log2_lt hpos.ne').2 n.toNat_lt
  have hround := spans_round (m := n.toNat) (e := 0) hpos (by omega)
  have hspans : Spans (-52) 12 (Float.Model.UnpackedFloat.ofUInt64 Format.binary64 n) := by
    show Spans _ _ (UnpackedFloat.normalize Format.binary64 (n.toNat : Int) 0 .positive)
    rw [UnpackedFloat.normalize, Int.compare_eq_gt.2 (by omega), Int.toNat_natCast]
    exact hround.mono (by omega) (by omega)
  show Spans _ _ (Float.Model.pack _).unpack
  rwa [hspans.unpack_pack (by omega) (by omega)]

/-! ### Parts -/

private theorem fields_negative {bits : UInt64}
    (h : Sign.ofBitVec (@unpackSign Format.binary64 bits.toBitVec) = .positive) : (fields bits).negative = false := by
  have hsign : @unpackSign Format.binary64 bits.toBitVec = 0#1 := by
    refine Decidable.byContradiction fun hne => ?_
    rw [Sign.ofBitVec, if_neg hne] at h
    cases h
  have hzero := congrArg BitVec.toNat hsign
  have hlt := bits.toNat_lt
  simp [unpackSign] at hzero
  simp [fields]
  omega

/-- What the bit pattern of such a double says. -/
theorem Between.exists_parts (h : Between low high x) :
    ∃ p, parts x = some p ∧ p.negative = false ∧ p.mantissa ≠ 0 ∧ low ≤ p.exponent ∧ p.exponent ≤ high := by
  obtain ⟨m, e, hm, heq, hlog, he, he'⟩ := Spans.exists_eq h
  have hexp : (@unpackExponent Format.binary64 x.toBits.toBitVec).toNat = (fields x.toBits).exponent := by
    simp [unpackExponent, fields]
  have hbias : (Format.binary64.exponentBias : Int) + (52 : Nat) = 1075 := rfl
  have hunpack : UnpackedFloat.unpack Format.binary64 x.toBits.toBitVec = .finite .positive m e hm := heq
  simp only [UnpackedFloat.unpack, hexp, hbias] at hunpack
  split at hunpack
  · split at hunpack
    · cases hunpack
    · cases hunpack
  · next hones =>
    split at hunpack
    · split at hunpack
      · cases hunpack
      · have hsmall := (@unpackMantissa Format.binary64 x.toBits.toBitVec).isLt
        obtain ⟨-, hmantissa, -⟩ := UnpackedFloat.finite.injEq .. ▸ hunpack
        rw [hmantissa] at hsmall
        exact absurd ((Nat.log2_lt hm.ne').2 hsmall) (by rw [hlog]; decide)
    · next hzero =>
      obtain ⟨hsign, -, hexponent⟩ := UnpackedFloat.finite.injEq .. ▸ hunpack
      have hne : (fields x.toBits).exponent ≠ 2047 := by
        rw [← hexp]
        exact fun heq => hones (BitVec.eq_of_toNat_eq heq)
      have hpos : (fields x.toBits).exponent ≠ 0 := by
        rw [← hexp]
        exact fun heq => hzero (BitVec.eq_of_toNat_eq heq)
      have hparts : parts x = some _ := (if_neg hne).trans (if_neg hpos)
      exact ⟨_, hparts, fields_negative hsign, by dsimp only; omega, by dsimp only; omega, by dsimp only; omega⟩

/-- Such a double is rounded to itself or to a whole number of 64 bits. -/
theorem Between.round_eq (h : Between low high x) :
    Binary64.round x = x ∨ ∃ n : UInt64, Binary64.round x = n.toFloat := by
  obtain ⟨p, hp, hnegative, -⟩ := h.exists_parts
  unfold Binary64.round
  rw [hp]
  dsimp only
  by_cases hwhole : 0 ≤ p.exponent
  · exact .inl (if_pos hwhole)
  · rw [if_neg hwhole, hnegative]
    exact .inr ⟨_, rfl⟩

end Binary64

end MergedMining
