import Mathlib.Algebra.Order.Floor.Semifield
import Mathlib.Data.Rat.Floor
import Mathlib.Data.Set.Basic
import Mathlib.Order.Bounds.Defs
import Mathlib.Tactic.GCongr
import Mathlib.Tactic.NormNum
import Mathlib.Tactic.Positivity
import MergedMining.Target

/-!
# Compact bits

The compact bits of a target keep its three highest bytes, or two of them where the third would need the sign
bit.  Both directions are scalings by powers of 256: bits with mantissa `m` and exponent `e` stand for
`m * 256 ^ e / 256 ^ 3` rounded down (`ofCompact_eq_ok_iff`), and the exponent of a target is the least one for
which the mantissa stays below the sign bit (`exists_toCompact_eq`).  So what is read back is the greatest
target with compact bits that does not exceed the one written.
-/

namespace MergedMining

namespace Target

variable {t u v w : Target} {c m e n k : Nat}

/-- A target that some 32 bits stand for. -/
def IsCompact (v : Target) : Prop := ∃ c : UInt32, ofCompact c.toNat = .ok v

/-! ### Reading compact bits -/

/-- The bounds on the exponent, one for each number of bytes in the mantissa, are a bound on the scaled mantissa. -/
private theorem fits_iff (hpos : m ≠ 0) (hlt : m < 0x800000) :
    ¬(34 < e ∨ (0xff < m ∧ 33 < e) ∨ (0xffff < m ∧ 32 < e)) ↔ m * 256 ^ e < size * 256 ^ 3 := by
  have hsize : size * 256 ^ 3 = 256 ^ 35 := by decide
  rw [hsize]
  rcases (by omega : e ≤ 32 ∨ e = 33 ∨ e = 34 ∨ 35 ≤ e) with hsmall | rfl | rfl | hgreat
  · refine iff_of_true (by omega) ?_
    calc m * 256 ^ e < 256 ^ 3 * 256 ^ 32 :=
          Nat.mul_lt_mul_of_lt_of_le (by omega) (Nat.pow_le_pow_right (by decide) hsmall) (by positivity)
      _ = 256 ^ 35 := by decide
  · omega
  · omega
  · refine iff_of_false (by omega) (Nat.not_lt.2 ?_)
    calc 256 ^ 35 ≤ 256 ^ e := Nat.pow_le_pow_right (by decide) hgreat
      _ ≤ m * 256 ^ e := Nat.le_mul_of_pos_left _ (by omega)

private theorem two_pow_bytes (k : Nat) : 2 ^ (8 * k) = 256 ^ k := Nat.pow_mul 2 8 k

private theorem shiftRight_bytes (n : Nat) (h : k ≤ m) : n >>> (8 * (m - k)) = n * 256 ^ k / 256 ^ m := by
  have hsplit : 256 ^ m = 256 ^ (m - k) * 256 ^ k := by rw [← Nat.pow_add, Nat.sub_add_cancel h]
  rw [Nat.shiftRight_eq_div_pow, two_pow_bytes, hsplit, Nat.mul_div_mul_right _ _ (by positivity)]

private theorem shiftLeft_bytes (n : Nat) (h : m ≤ k) : n <<< (8 * (k - m)) = n * 256 ^ k / 256 ^ m := by
  have hsplit : 256 ^ k = 256 ^ (k - m) * 256 ^ m := by rw [← Nat.pow_add, Nat.sub_add_cancel h]
  rw [Nat.shiftLeft_eq, two_pow_bytes, hsplit, ← Nat.mul_assoc, Nat.mul_div_cancel _ (by positivity)]

theorem eq_iff_toNat_eq : t = u ↔ t.toNat = u.toNat := by
  cases t
  cases u
  exact Target.mk.injEq .. ▸ Iff.rfl

private theorem ok_ofNat_eq_ok_iff (h : n < size) :
    (Except.ok (ofNat n) : Except EncodingFault Target) = .ok v ↔ v.toNat = n := by
  have hn : (ofNat n).toNat = n := Nat.mod_eq_of_lt h
  rw [Except.ok.injEq, eq_iff_toNat_eq, hn, eq_comm]

/-- Bits are read exactly if their mantissa is zero, or they are positive and the scaled mantissa has at most
256 bits. -/
theorem ofCompact_eq_ok_iff : ofCompact c = .ok v ↔
    (c % 0x800000 = 0 ∨ (c >>> 23) % 2 = 0 ∧ c % 0x800000 * 256 ^ (c >>> 24) < size * 256 ^ 3) ∧
      v.toNat = c % 0x800000 * 256 ^ (c >>> 24) / 256 ^ 3 := by
  have hlt : c % 0x800000 < 0x800000 := Nat.mod_lt _ (by decide)
  unfold ofCompact
  dsimp only
  generalize c % 0x800000 = m at *
  generalize c >>> 24 = e
  have hshift : (if e ≤ 3 then .ok (ofNat (m >>> (8 * (3 - e)))) else .ok (ofNat (m <<< (8 * (e - 3)))) :
      Except EncodingFault Target) = .ok (ofNat (m * 256 ^ e / 256 ^ 3)) := by
    split
    · next hsmall => rw [shiftRight_bytes m hsmall]
    · next hgreat => rw [shiftLeft_bytes m (Nat.le_of_not_le hgreat)]
  rw [hshift]
  by_cases hzero : m = 0
  · subst hzero
    simp only [ne_eq, not_true_eq_false, false_and, if_false, true_or, true_and, Nat.zero_mul, Nat.zero_div]
    exact ok_ofNat_eq_ok_iff (by decide)
  by_cases hnegative : (c >>> 23) % 2 = 1
  · rw [if_pos ⟨hzero, hnegative⟩]
    exact iff_of_false nofun (by omega)
  rw [if_neg (not_and_of_not_right _ hnegative)]
  by_cases hfits : m * 256 ^ e < size * 256 ^ 3
  · rw [if_neg (not_and_of_not_right _ ((fits_iff hzero hlt).2 hfits)),
      ok_ofNat_eq_ok_iff ((Nat.div_lt_iff_lt_mul (by decide)).2 hfits)]
    exact (and_iff_right (.inr ⟨by omega, hfits⟩)).symm
  · rw [if_pos ⟨hzero, not_not.1 ((fits_iff hzero hlt).not.2 hfits)⟩]
    exact iff_of_false nofun fun h => h.1.elim hzero fun h => hfits h.2

theorem exists_ofCompact_eq_ok_iff : (∃ v, ofCompact c = .ok v) ↔
    c % 0x800000 = 0 ∨ (c >>> 23) % 2 = 0 ∧ c % 0x800000 * 256 ^ (c >>> 24) < size * 256 ^ 3 := by
  constructor
  · rintro ⟨v, hv⟩
    exact (ofCompact_eq_ok_iff.1 hv).1
  · intro hgood
    have hfits : c % 0x800000 * 256 ^ (c >>> 24) < size * 256 ^ 3 := by
      rcases hgood with hzero | ⟨-, hfits⟩
      · rw [hzero, Nat.zero_mul]
        decide
      · exact hfits
    exact ⟨⟨_, (Nat.div_lt_iff_lt_mul (by decide)).2 hfits⟩, ofCompact_eq_ok_iff.2 ⟨hgood, rfl⟩⟩

/-! ### Writing compact bits -/

/-- The mantissa of a number with exponent `e`. -/
def mantissa (n e : Nat) : Nat := n * 256 ^ 3 / 256 ^ e

/-- The least exponent with which the mantissa of a number stays below the sign bit. -/
def IsExponent (n e : Nat) : Prop := IsLeast {e | n * 256 ^ 3 < 0x800000 * 256 ^ e} e

theorem byteLength_le_iff : byteLength n ≤ k ↔ n < 256 ^ k := by
  unfold byteLength
  split
  · next hzero =>
    subst hzero
    exact iff_of_true (Nat.zero_le _) (by positivity)
  · next hne =>
    rw [← two_pow_bytes, ← Nat.log2_lt hne]
    omega

theorem exists_toCompact_eq (t : Target) :
    ∃ e, IsExponent t.toNat e ∧ t.toCompact = mantissa t.toNat e + e * 0x1000000 := by
  have hlt : t.toNat < 256 ^ byteLength t.toNat := byteLength_le_iff.1 le_rfl
  have hle {k : Nat} (h : k < byteLength t.toNat) : 256 ^ k ≤ t.toNat :=
    Nat.not_lt.1 (byteLength_le_iff.not.1 (by omega))
  unfold toCompact
  dsimp only
  generalize byteLength t.toNat = n at *
  have hscaled : (if n ≤ 3 then t.toNat <<< (8 * (3 - n)) else t.toNat >>> (8 * (n - 3))) =
      t.toNat * 256 ^ 3 / 256 ^ n := by
    split
    · next hshort => exact shiftLeft_bytes _ hshort
    · next hlong => exact shiftRight_bytes _ (Nat.le_of_not_le hlong)
  rw [hscaled]
  have htop : t.toNat * 256 ^ 3 / 256 ^ n < 0x1000000 := by
    rw [Nat.div_lt_iff_lt_mul (by positivity), Nat.mul_comm]
    exact Nat.mul_lt_mul_of_pos_left hlt (by decide)
  have hsign : ((t.toNat * 256 ^ 3 / 256 ^ n) >>> 23) % 2 = 1 ↔ 0x800000 * 256 ^ n ≤ t.toNat * 256 ^ 3 := by
    rw [← Nat.le_div_iff_mul_le (by positivity), Nat.shiftRight_eq_div_pow]
    omega
  split
  · next hset =>
    -- the third byte would reach into the sign bit, so the exponent is one more than the number of bytes
    rw [hsign] at hset
    refine ⟨n + 1, ⟨?_, fun k hk => ?_⟩, ?_⟩
    · calc t.toNat * 256 ^ 3 < 256 ^ n * 256 ^ 3 := Nat.mul_lt_mul_of_pos_right hlt (by decide)
        _ ≤ 0x800000 * 256 ^ (n + 1) := by
          rw [Nat.pow_succ]
          omega
    · exact Nat.not_lt.1 fun hless => absurd hk (Nat.not_lt.2 (calc
        0x800000 * 256 ^ k ≤ 0x800000 * 256 ^ n := by gcongr <;> omega
        _ ≤ t.toNat * 256 ^ 3 := hset))
    · rw [mantissa, Nat.div_div_eq_div_mul, Nat.shiftLeft_eq, ← Nat.pow_succ]
  · next hclear =>
    rw [hsign, Nat.not_le] at hclear
    refine ⟨n, ⟨hclear, fun k hk => Nat.not_lt.1 fun hless => ?_⟩, by rw [mantissa, Nat.shiftLeft_eq]⟩
    have := hle hless
    exact absurd hk (Nat.not_lt.2 (by omega))

/-! ### What is read back -/

/-- What is read back from the mantissa with exponent `e`. -/
def kept (n e : Nat) : Nat := mantissa n e * 256 ^ e / 256 ^ 3

theorem mantissa_lt (h : n * 256 ^ 3 < 0x800000 * 256 ^ e) : mantissa n e < 0x800000 :=
  (Nat.div_lt_iff_lt_mul (by positivity)).2 h

theorem mantissa_mul_le (n e : Nat) : mantissa n e * 256 ^ e ≤ n * 256 ^ 3 := Nat.div_mul_le_self ..

theorem kept_le (n e : Nat) : kept n e ≤ n := Nat.div_le_of_le_mul (by
  rw [Nat.mul_comm (256 ^ 3)]
  exact mantissa_mul_le n e)

/-- Up to exponent three nothing is lost. -/
theorem kept_of_le_three (n : Nat) (h : e ≤ 3) : kept n e = n := by
  have hsplit : 256 ^ 3 = 256 ^ (3 - e) * 256 ^ e := by rw [← Nat.pow_add, Nat.sub_add_cancel h]
  have hmantissa : mantissa n e * 256 ^ e = n * 256 ^ 3 :=
    Nat.div_mul_cancel (Dvd.dvd.mul_left (hsplit ▸ Nat.dvd_mul_left ..) n)
  rw [kept, hmantissa, Nat.mul_div_cancel _ (by decide)]

/-- From exponent three on only the division by the power of the exponent rounds. -/
theorem kept_mul (n : Nat) (h : 3 ≤ e) : kept n e * 256 ^ 3 = mantissa n e * 256 ^ e :=
  Nat.div_mul_cancel (Dvd.dvd.mul_left (pow_dvd_pow 256 h) _)

section IsExponent

variable (h : IsExponent n e)
include h

theorem IsExponent.le_mantissa (hpos : 0 < e) : 0x8000 ≤ mantissa n e := by
  obtain ⟨k, rfl⟩ := Nat.exists_eq_add_one.2 hpos
  have hmissed : 0x800000 * 256 ^ k ≤ n * 256 ^ 3 := Nat.not_lt.1 fun hless => Nat.not_succ_le_self k (h.2 hless)
  rw [mantissa, Nat.le_div_iff_mul_le (by positivity), Nat.pow_succ]
  omega

/-- Any mantissa below the sign bit with a smaller exponent stands for less. -/
theorem IsExponent.mul_pow_le (hless : k < e) : 0x800000 * 256 ^ k ≤ mantissa n e * 256 ^ e := calc
  0x800000 * 256 ^ k = 0x8000 * 256 ^ (k + 1) := by
    rw [Nat.pow_succ]
    omega
  _ ≤ mantissa n e * 256 ^ e :=
    Nat.mul_le_mul (h.le_mantissa (by omega)) (Nat.pow_le_pow_right (by decide) hless)

/-- What is read back is written as what was read. -/
theorem IsExponent.kept : IsExponent (kept n e) e ∧ mantissa (Target.kept n e) e = mantissa n e := by
  rcases Nat.le_total e 3 with hshort | hlong
  · rw [kept_of_le_three n hshort]
    exact ⟨h, rfl⟩
  have hkept := kept_mul n hlong
  refine ⟨⟨?_, fun k hk => ?_⟩, ?_⟩
  · show Target.kept n e * 256 ^ 3 < _
    rw [hkept]
    exact Nat.mul_lt_mul_of_pos_right (mantissa_lt h.1) (by positivity)
  · refine Nat.not_lt.1 fun hless => ?_
    have hk : Target.kept n e * 256 ^ 3 < 0x800000 * 256 ^ k := hk
    exact absurd hk (Nat.not_lt.2 ((h.mul_pow_le hless).trans_eq hkept.symm))
  · rw [mantissa, hkept, Nat.mul_div_cancel _ (by positivity)]

/-- No mantissa below the sign bit, whatever its exponent, stands for a number between. -/
theorem IsExponent.le_kept (hm : m < 0x800000) (hle : m * 256 ^ k / 256 ^ 3 ≤ n) :
    m * 256 ^ k / 256 ^ 3 ≤ Target.kept n e := by
  rcases Nat.le_total e 3 with hshort | hlong
  · rwa [kept_of_le_three n hshort]
  refine Nat.le_of_mul_le_mul_right (?_ : _ * 256 ^ 3 ≤ _ * 256 ^ 3) (by decide)
  rw [kept_mul n hlong]
  rcases Nat.lt_or_ge k e with hless | hge
  · -- with a smaller exponent the number is below the least one that has exponent `e`
    calc m * 256 ^ k / 256 ^ 3 * 256 ^ 3 ≤ m * 256 ^ k := Nat.div_mul_le_self ..
      _ ≤ 0x800000 * 256 ^ k := Nat.mul_le_mul_right _ hm.le
      _ ≤ mantissa n e * 256 ^ e := h.mul_pow_le hless
  · -- with a greater exponent it is a multiple of the power that the mantissa is rounded to
    have hsplit : m * 256 ^ k = m * 256 ^ (k - e) * 256 ^ e := by
      rw [Nat.mul_assoc, ← Nat.pow_add, Nat.sub_add_cancel hge]
    have hwhole : m * 256 ^ k / 256 ^ 3 * 256 ^ 3 = m * 256 ^ k :=
      Nat.div_mul_cancel (Dvd.dvd.mul_left (pow_dvd_pow 256 (hlong.trans hge)) m)
    have hbelow : m * 256 ^ (k - e) ≤ mantissa n e := by
      rw [mantissa, Nat.le_div_iff_mul_le (by positivity), ← hsplit, ← hwhole]
      exact Nat.mul_le_mul_right _ hle
    rw [hwhole, hsplit]
    exact Nat.mul_le_mul_right _ hbelow

end IsExponent

theorem toCompact_eq (h : IsExponent t.toNat e) : t.toCompact = mantissa t.toNat e + e * 0x1000000 := by
  obtain ⟨e', he', heq⟩ := exists_toCompact_eq t
  rw [heq, h.unique he']

theorem exponent_le (h : IsExponent t.toNat e) : e ≤ 33 := by
  refine h.2 (?_ : t.toNat * 256 ^ 3 < 0x800000 * 256 ^ 33)
  have hlt : t.toNat < 256 ^ 32 := t.isLt
  omega

/-- What is read back from the compact bits of a target. -/
theorem exists_ofCompact_toCompact (t : Target) :
    ∃ e v, IsExponent t.toNat e ∧ ofCompact t.toCompact = .ok v ∧ v.toNat = kept t.toNat e := by
  obtain ⟨e, he, heq⟩ := exists_toCompact_eq t
  have hlt := mantissa_lt he.1
  have hle := kept_le t.toNat e
  have hbits := exponent_le he
  have hlow : t.toCompact % 0x800000 = mantissa t.toNat e := by omega
  have hhigh : t.toCompact >>> 24 = e := by
    rw [Nat.shiftRight_eq_div_pow]
    omega
  have hsign : (t.toCompact >>> 23) % 2 = 0 := by
    rw [Nat.shiftRight_eq_div_pow]
    omega
  refine ⟨e, ⟨kept t.toNat e, hle.trans_lt t.isLt⟩, he, ofCompact_eq_ok_iff.2 ⟨.inr ⟨hsign, ?_⟩, ?_⟩, rfl⟩
  · rw [hlow, hhigh]
    exact (mantissa_mul_le t.toNat e).trans_lt (Nat.mul_lt_mul_of_pos_right t.isLt (by decide))
  · rw [hlow, hhigh]
    rfl

theorem toCompact_lt (t : Target) : t.toCompact < UInt32.size := by
  obtain ⟨e, he, heq⟩ := exists_toCompact_eq t
  have hlt := mantissa_lt he.1
  have hle := exponent_le he
  rw [heq, UInt32.size]
  omega

theorem isGreatest_of_ofCompact_toCompact (h : ofCompact t.toCompact = .ok v) :
    IsGreatest {r | IsCompact r ∧ r ≤ t} v := by
  obtain ⟨e, v', he, hv', hkept⟩ := exists_ofCompact_toCompact t
  rw [h] at hv'
  cases hv'
  refine ⟨⟨⟨UInt32.ofNat t.toCompact, ?_⟩, hkept.trans_le (kept_le t.toNat e)⟩, ?_⟩
  · rw [UInt32.toNat_ofNat_of_lt' (toCompact_lt t), h]
  · rintro r ⟨⟨c, hc⟩, hle⟩
    have hr := (ofCompact_eq_ok_iff.1 hc).2
    show r.toNat ≤ v.toNat
    rw [hr, hkept]
    exact he.le_kept (Nat.mod_lt _ (by decide)) (hr ▸ hle)

/-- The number that compact bits denote, as an exact fraction. -/
def compactValue (c : UInt32) : ℚ :=
  (c.toNat % 0x800000 : Nat) * 256 ^ ((c.toNat >>> 24 : Nat) - 3 : Int)

private theorem compactValue_eq (c : UInt32) :
    compactValue c = (c.toNat % 0x800000 * 256 ^ (c.toNat >>> 24) : Nat) / (256 ^ 3 : Nat) := by
  rw [compactValue, zpow_sub₀ (by norm_num), zpow_natCast]
  push_cast
  rw [mul_div_assoc]

/-- Compact bits round a target down to the nearest one that has compact bits, and bits are read as the number
that they denote, rounded down. -/
theorem toCompact_isGreatest :
    (∀ t : Target, t.toCompact < UInt32.size ∧ ∃ v, ofCompact t.toCompact = .ok v ∧
        IsGreatest {r | IsCompact r ∧ r ≤ t} v ∧ v.toCompact = t.toCompact) ∧
      (∀ t u v w : Target, t ≤ u → ofCompact t.toCompact = .ok v → ofCompact u.toCompact = .ok w → v ≤ w) ∧
      ∀ c : UInt32, ((∃ v, ofCompact c.toNat = .ok v) ↔
          c.toNat % 0x800000 = 0 ∨ (c.toNat >>> 23) % 2 = 0 ∧ compactValue c < 2 ^ 256) ∧
        ∀ v, ofCompact c.toNat = .ok v → v.toNat = ⌊compactValue c⌋₊ := by
  refine ⟨fun t => ?_, fun t u v w hle hv hw => ?_, fun c => ⟨?_, fun v hv => ?_⟩⟩
  · obtain ⟨e, v, he, hv, hkept⟩ := exists_ofCompact_toCompact t
    have hagain : IsExponent v.toNat e ∧ mantissa v.toNat e = mantissa t.toNat e := hkept ▸ he.kept
    refine ⟨toCompact_lt t, v, hv, isGreatest_of_ofCompact_toCompact hv, ?_⟩
    rw [toCompact_eq hagain.1, hagain.2, toCompact_eq he]
  · obtain ⟨hcompact, hbelow⟩ := (isGreatest_of_ofCompact_toCompact hv).1
    exact (isGreatest_of_ofCompact_toCompact hw).2 ⟨hcompact, Nat.le_trans hbelow hle⟩
  · have hvalue : compactValue c < 2 ^ 256 ↔
        c.toNat % 0x800000 * 256 ^ (c.toNat >>> 24) < size * 256 ^ 3 := by
      rw [compactValue_eq, div_lt_iff₀ (by positivity)]
      exact_mod_cast Iff.rfl
    rw [hvalue]
    exact exists_ofCompact_eq_ok_iff
  · rw [compactValue_eq, Nat.floor_div_eq_div]
    exact (ofCompact_eq_ok_iff.1 hv).2

theorem toCompact_isGreatest_sample :
    IsGreatest {r | IsCompact r ∧ r ≤ ofNat 0x1234567} (ofNat 0x1234500) ∧ ofNat 0x1234500 ≤ highest ∧
      0x404cb * 256 ^ 24 = ⌊compactValue 0x1b0404cb⌋₊ := by
  have hread : ofCompact (ofNat 0x1234567).toCompact = .ok (ofNat 0x1234500) := rfl
  have hhighest : ofCompact highest.toCompact = .ok highest := rfl
  have hbits' : ofCompact (0x1b0404cb : UInt32).toNat = .ok (ofNat (0x404cb * 256 ^ 24)) := rfl
  obtain ⟨hwritten, hmono, hbits⟩ := toCompact_isGreatest
  obtain ⟨-, v, hv, hgreatest, -⟩ := hwritten (ofNat 0x1234567)
  rw [hread] at hv
  cases hv
  exact ⟨hgreatest, hmono _ _ _ _ (by decide) hread hhighest, (hbits 0x1b0404cb).2 _ hbits'⟩

end Target

end MergedMining
