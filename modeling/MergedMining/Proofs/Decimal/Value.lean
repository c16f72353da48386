import Mathlib
import MergedMining.Decimal.Binary64

/-!
# The number that a double stands for

A finite double stands for a rational number, and its parts are those of that number (`agree`,
`Positive.value?_eq`), also where it has fewer than fifty-three digits.  A double is finite and positive exactly
if its parts say so (`isFinite_and_pos_iff`), and the greater of two positive doubles stands for the greater
number (`Positive.value_le`).
-/

namespace MergedMining

namespace Binary64

open Float.Model Float.Model.UnpackedFloat

/-- The number that a double stands for; infinities and what is no number stand for none. -/
def value? (x : Float) : Option ℚ :=
  match x.toModel.unpack with
  | .notANumber => none
  | .infinity _ => none
  | .zero _ => some 0
  | .finite sign mantissa exponent _ => some (sign.apply mantissa * 2 ^ exponent)

/-- A double and its parts.  Only at the least exponent a mantissa has fewer than fifty-three digits. -/
inductive Agree : UnpackedFloat → Option Parts → Prop
  | notANumber : Agree .notANumber none
  | infinity (sign : Sign) : Agree (.infinity sign) none
  | zero (sign : Sign) {p : Parts} (hzero : p.mantissa = 0) : Agree (.zero sign) (some p)
  | finite (sign : Sign) {p : Parts} (hpos : 0 < p.mantissa) (hsign : p.negative = true ↔ sign = .negative)
      (hlt : p.mantissa < 2 ^ 53) (hlow : -1074 ≤ p.exponent) (hfull : 2 ^ 52 ≤ p.mantissa ∨ p.exponent = -1074) :
      Agree (.finite sign p.mantissa p.exponent hpos) (some p)

private theorem toNat_unpackExponent (bits : UInt64) :
    (@unpackExponent Format.binary64 bits.toBitVec).toNat = (fields bits).exponent := by
  simp [unpackExponent, fields]

private theorem toNat_unpackMantissa (bits : UInt64) :
    (@unpackMantissa Format.binary64 bits.toBitVec).toNat = (fields bits).fraction := by
  simp [unpackMantissa, fields]

private theorem negative_iff (bits : UInt64) :
    (fields bits).negative = true ↔ Sign.ofBitVec (@unpackSign Format.binary64 bits.toBitVec) = .negative := by
  have hlt := bits.toNat_lt
  have hsign : (@unpackSign Format.binary64 bits.toBitVec).toNat = bits.toNat / 2 ^ 63 := by
    simp [unpackSign]
    omega
  have hzero : @unpackSign Format.binary64 bits.toBitVec = 0#1 ↔ bits.toNat < 2 ^ 63 := by
    rw [← BitVec.toNat_inj, hsign, BitVec.toNat_zero]
    omega
  simp only [fields, decide_eq_true_eq, Sign.ofBitVec, hzero]
  split
  · exact iff_of_false (by omega) (by simp)
  · exact iff_of_true (by omega) rfl

private theorem agree_finite {sign : Sign} {mantissa : Nat} {exponent : Int} (hpos : 0 < mantissa) {p : Parts}
    (hsign : p.negative = true ↔ sign = .negative) (hmantissa : p.mantissa = mantissa)
    (hexponent : p.exponent = exponent) (hlt : mantissa < 2 ^ 53) (hlow : -1074 ≤ exponent)
    (hfull : 2 ^ 52 ≤ mantissa ∨ exponent = -1074) :
    Agree (.finite sign mantissa exponent hpos) (some p) := by
  subst hmantissa hexponent
  exact .finite sign hpos hsign hlt hlow hfull

theorem agree (x : Float) : Agree x.toModel.unpack (parts x) := by
  have hexponent := toNat_unpackExponent x.toBits
  have hmantissa := toNat_unpackMantissa x.toBits
  have hnegative := negative_iff x.toBits
  have hlt : (fields x.toBits).fraction < 2 ^ 52 := Nat.mod_lt _ (by decide)
  have hbias : (Format.binary64.exponentBias : Int) + (52 : Nat) = 1075 := rfl
  have hlast : @unpackExponent Format.binary64 x.toBits.toBitVec = -1#11 ↔ (fields x.toBits).exponent = 2047 := by
    rw [← BitVec.toNat_inj, hexponent]
    rfl
  have hfirst : @unpackExponent Format.binary64 x.toBits.toBitVec = 0#11 ↔ (fields x.toBits).exponent = 0 := by
    rw [← BitVec.toNat_inj, hexponent]
    rfl
  have hnone : @unpackMantissa Format.binary64 x.toBits.toBitVec = 0#52 ↔ (fields x.toBits).fraction = 0 := by
    rw [← BitVec.toNat_inj, hmantissa]
    rfl
  show Agree (UnpackedFloat.unpack Format.binary64 x.toBits.toBitVec) _
  rw [parts, partsOfBits]
  simp only [UnpackedFloat.unpack, hexponent, hbias]
  by_cases hlast' : (fields x.toBits).exponent = 2047
  · rw [if_pos (hlast.2 hlast'), if_pos hlast']
    split
    · exact .infinity _
    · exact .notANumber
  rw [if_neg (hlast.not.2 hlast'), if_neg hlast']
  by_cases hfirst' : (fields x.toBits).exponent = 0
  · rw [if_pos (hfirst.2 hfirst'), if_pos hfirst']
    split
    · next hzero => exact .zero _ (hnone.1 hzero)
    · exact agree_finite _ hnegative hmantissa.symm (by dsimp only; omega) (by omega) (by omega) (.inr (by omega))
  · rw [if_neg (hfirst.not.2 hfirst'), if_neg hfirst']
    have happend : (1#1 ++ @unpackMantissa Format.binary64 x.toBits.toBitVec).toNat =
        2 ^ 52 + (fields x.toBits).fraction := by
      rw [BitVec.toNat_append, ← Nat.shiftLeft_add_eq_or_of_lt (BitVec.isLt _), hmantissa, Nat.shiftLeft_eq]
      rfl
    exact agree_finite _ hnegative happend.symm rfl (by omega) (by omega) (.inl (by omega))

/-! ### Finite and positive doubles -/

variable {x y : Float} {p p' : Parts}

/-- The parts of a positive double. -/
structure Positive (x : Float) (p : Parts) : Prop where
  parts_eq : parts x = some p
  unpack_eq : ∃ h, x.toModel.unpack = .finite .positive p.mantissa p.exponent h
  sign : p.negative = false
  pos : 0 < p.mantissa
  lt : p.mantissa < 2 ^ 53
  low : -1074 ≤ p.exponent
  full : 2 ^ 52 ≤ p.mantissa ∨ p.exponent = -1074

theorem positive_of_parts (hp : parts x = some p) (hsign : p.negative = false) (hne : p.mantissa ≠ 0) :
    Positive x p := by
  have hagree := agree x
  rw [hp] at hagree
  generalize hunpack : x.toModel.unpack = u at hagree
  cases hagree with
  | zero _ hzero => exact absurd hzero hne
  | finite sign hpos hiff hlt hlow hfull =>
    cases sign with
    | negative => rw [hiff.2 rfl] at hsign; cases hsign
    | positive => exact ⟨hp, ⟨hpos, hunpack⟩, hsign, hpos, hlt, hlow, hfull⟩

theorem Positive.value?_eq (h : Positive x p) : value? x = some ((p.mantissa : ℚ) * 2 ^ p.exponent) := by
  obtain ⟨_, hunpack⟩ := h.unpack_eq
  simp only [value?, hunpack, Sign.apply, Int.cast_natCast]

theorem unpack_zero : (0 : Float).toModel.unpack = .zero .positive := rfl

/-- A double is finite and above zero exactly if it is unpacked as a positive number. -/
theorem isFinite_and_pos_iff_unpack :
    x.isFinite = true ∧ 0 < x ↔ ∃ m e h, x.toModel.unpack = .finite .positive m e h := by
  have hfinite : x.isFinite = x.toModel.unpack.isFinite := rfl
  have hpos : 0 < x ↔ UnpackedFloat.lt (0 : Float).toModel.unpack x.toModel.unpack = true := decide_eq_true_iff
  rw [hfinite, hpos, unpack_zero]
  constructor
  · rintro ⟨hfinite, hpos⟩
    generalize x.toModel.unpack = u at hfinite hpos
    cases u with
    | notANumber => cases hfinite
    | infinity => cases hfinite
    | zero => cases hpos
    | finite sign m e h =>
      cases sign with
      | negative => cases hpos
      | positive => exact ⟨m, e, h, rfl⟩
  · rintro ⟨m, e, h, hunpack⟩
    rw [hunpack]
    exact ⟨rfl, rfl⟩

/-- A double is finite and above zero exactly if it has the parts of a positive number. -/
theorem isFinite_and_pos_iff : x.isFinite = true ∧ 0 < x ↔ ∃ p, Positive x p := by
  rw [isFinite_and_pos_iff_unpack]
  constructor
  · rintro ⟨m, e, h, hunpack⟩
    have hagree := agree x
    rw [hunpack] at hagree
    generalize hp : parts x = shown at hagree
    cases hagree with
    | finite _ _ hiff =>
      exact ⟨_, positive_of_parts hp (Bool.eq_false_iff.2 fun hnegative => nomatch hiff.1 hnegative) h.ne'⟩
  · rintro ⟨p, h⟩
    exact ⟨_, _, h.unpack_eq⟩

private theorem mul_zpow_le {m m' : Nat} {e e' : Int} (hlt : m < 2 ^ 53) (hlow : -1074 ≤ e)
    (hfull : 2 ^ 52 ≤ m' ∨ e' = -1074) (h : e < e' ∨ e = e' ∧ m ≤ m') : (m : ℚ) * 2 ^ e ≤ m' * 2 ^ e' := by
  rcases h with hless | ⟨rfl, hle⟩
  · -- the number with the greater exponent has all its digits
    have hfull' : 2 ^ 52 ≤ m' := hfull.resolve_right (by omega)
    have hm : (m : ℚ) ≤ 2 ^ 53 := by exact_mod_cast hlt.le
    have hm' : (2 : ℚ) ^ 52 ≤ m' := by exact_mod_cast hfull'
    calc (m : ℚ) * 2 ^ e ≤ 2 ^ 53 * 2 ^ e := by gcongr
      _ = 2 ^ 52 * 2 ^ (e + 1) := by
        rw [zpow_add_one₀ (by norm_num)]
        ring
      _ ≤ m' * 2 ^ e' := by
        gcongr
        · norm_num
        · omega
  · gcongr

/-- The greater of two positive doubles stands for the greater number. -/
theorem Positive.value_le (h : Positive x p) (h' : Positive y p') (hle : x ≤ y) :
    (p.mantissa : ℚ) * 2 ^ p.exponent ≤ p'.mantissa * 2 ^ p'.exponent := by
  have hle : UnpackedFloat.le x.toModel.unpack y.toModel.unpack = true := decide_eq_true_iff.1 hle
  obtain ⟨_, hunpack⟩ := h.unpack_eq
  obtain ⟨_, hunpack'⟩ := h'.unpack_eq
  rw [hunpack, hunpack'] at hle
  refine mul_zpow_le h.lt h.low h'.full ?_
  have horder : ((compare p.exponent p'.exponent).then (compare p.mantissa p'.mantissa)).isLE = true := hle
  rcases hcompare : compare p.exponent p'.exponent with _ | _ | _
  · exact .inl (Int.compare_eq_lt.1 hcompare)
  · rw [hcompare] at horder
    exact .inr ⟨Int.compare_eq_eq.1 hcompare, Nat.isLE_compare.1 horder⟩
  · rw [hcompare] at horder
    cases horder

end Binary64

end MergedMining
