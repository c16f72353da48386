import Mathlib.Algebra.Order.Field.Basic
import Mathlib.Algebra.Order.Field.Power
import Mathlib.Data.Rat.Cast.Order
import Mathlib.Data.List.DropRight
import Mathlib.Tactic.GCongr
import Mathlib.Tactic.Linarith
import Mathlib.Tactic.Positivity
import Mathlib.Tactic.Ring
import MergedMining.Decimal.Shortest

/-!
# The search for the shortest decimal ends

Around every positive double lies an interval of fractions that round to it, and seventeen digits are always
enough for a decimal in it (`Interval.Proper.exists_search_eq`): the interval is wider than the distance between
two decimals of seventeen digits.  So what is written has digits, none of them in vain (`proper_shortest`).
-/

namespace MergedMining

/-- A positive value of a double. -/
structure Binary64.Parts.Fits (p : Binary64.Parts) : Prop where
  pos : 0 < p.mantissa
  lt : p.mantissa < 2 ^ 53
  narrow : p.narrow = true → p.mantissa = 2 ^ 52

theorem Binary64.fits_of_partsOfBits {bits : UInt64} {p : Binary64.Parts} (h : partsOfBits bits = some p)
    (hne : p.mantissa ≠ 0) : p.Fits := by
  have hfraction : (fields bits).fraction < 0x10000000000000 := Nat.mod_lt _ (by decide)
  unfold partsOfBits at h
  dsimp only at h
  split at h
  · cases h
  · split at h
    · cases h
      exact ⟨Nat.pos_of_ne_zero hne, by dsimp only; omega, nofun⟩
    · cases h
      refine ⟨by dsimp only; omega, by dsimp only; omega, fun hnarrow => ?_⟩
      have hzero : (fields bits).fraction = 0 := (of_decide_eq_true hnarrow).1
      dsimp only
      omega

namespace Decimal

/-! ### Powers of ten -/

theorem length_bounds {n : Nat} (h : 0 < n) : 10 ^ (length n - 1) ≤ n ∧ n < 10 ^ length n := by
  induction n using Nat.strongRecOn with
  | _ n ih =>
    rw [length, if_neg (by omega)]
    by_cases hlast : n / 10 = 0
    · rw [hlast, length, if_pos rfl]
      omega
    · obtain ⟨hlow, hhigh⟩ := ih (n / 10) (by omega) (by omega)
      have hpos : 0 < length (n / 10) := by
        rw [length, if_neg hlast]
        omega
      obtain ⟨k, hk⟩ : ∃ k, length (n / 10) = k + 1 := ⟨length (n / 10) - 1, by omega⟩
      rw [hk] at hlow hhigh ⊢
      rw [Nat.add_sub_cancel] at hlow ⊢
      rw [Nat.pow_succ 10 (k + 1)]
      rw [Nat.pow_succ] at hhigh ⊢
      omega

private theorem zerosBehindPoint_bounds {fuel num den : Nat} (hlt : num < den) (hfuel : den ≤ num * 10 ^ (fuel + 1)) :
    num * 10 ^ zerosBehindPoint fuel num den < den ∧ den ≤ num * 10 ^ (zerosBehindPoint fuel num den + 1) := by
  induction fuel generalizing num with
  | zero => exact ⟨by simpa [zerosBehindPoint] using hlt, hfuel⟩
  | succ fuel ih =>
    rw [zerosBehindPoint]
    split
    · next hmore =>
      have hstep (k : Nat) : num * 10 ^ (k + 1) = num * 10 * 10 ^ k := by rw [Nat.pow_succ', ← Nat.mul_assoc]
      obtain ⟨hlow, hhigh⟩ := ih hmore (by rw [← hstep]; exact hfuel)
      rw [hstep, hstep]
      exact ⟨hlow, hhigh⟩
    · next hstop =>
      rw [Nat.pow_zero, Nat.mul_one, Nat.zero_add, Nat.pow_one]
      exact ⟨hlt, by omega⟩

/-- A power of ten, as the search has it: a factor on one side and a factor on the other. -/
private theorem pow_toNat_div (k : Int) : (10 : ℚ) ^ k.toNat / 10 ^ (-k).toNat = 10 ^ k := by
  rcases Int.le_total 0 k with hk | hk
  · obtain ⟨n, rfl⟩ := Int.eq_ofNat_of_zero_le hk
    simp
  · obtain ⟨n, hn⟩ := Int.eq_ofNat_of_zero_le (Int.neg_nonneg.2 hk)
    obtain rfl : k = -n := by omega
    simp

theorem magnitude_bounds {num den : Nat} (hnum : 0 < num) (hden : 0 < den) :
    (10 : ℚ) ^ (magnitude num den - 1) ≤ num / den ∧ (num : ℚ) / den < 10 ^ magnitude num den := by
  have hden' : (0 : ℚ) < den := by exact_mod_cast hden
  unfold magnitude
  split
  · next hle =>
    obtain ⟨hlow, hhigh⟩ := length_bounds (Nat.div_pos hle hden)
    have hpos : 0 < length (num / den) := by
      rw [length, if_neg (Nat.div_pos hle hden).ne']
      omega
    rw [Nat.le_div_iff_mul_le hden] at hlow
    rw [Nat.div_lt_iff_lt_mul hden] at hhigh
    rw [le_div_iff₀ hden', div_lt_iff₀ hden']
    refine ⟨?_, by exact_mod_cast hhigh⟩
    rw [show (length (num / den) : Int) - 1 = (length (num / den) - 1 : Nat) by omega]
    exact_mod_cast hlow
  · next hlt =>
    have hlog : den < 2 ^ (den.log2 + 1) := Nat.lt_log2_self
    have hfuel : den ≤ num * 10 ^ (den.log2 + 1) := by
      calc den ≤ 2 ^ (den.log2 + 1) := hlog.le
        _ ≤ 10 ^ (den.log2 + 1) := Nat.pow_le_pow_left (by decide) _
        _ ≤ num * 10 ^ (den.log2 + 1) := Nat.le_mul_of_pos_left _ hnum
    obtain ⟨hlow, hhigh⟩ := zerosBehindPoint_bounds (Nat.lt_of_not_le hlt) hfuel
    generalize zerosBehindPoint den.log2 num den = zeros at hlow hhigh ⊢
    have hlow' : (num : ℚ) * 10 ^ zeros < den := by exact_mod_cast hlow
    have hhigh' : (den : ℚ) ≤ num * 10 ^ (zeros + 1) := by exact_mod_cast hhigh
    rw [show -(zeros : Int) - 1 = -((zeros + 1 : Nat) : Int) by omega, zpow_neg, zpow_neg, zpow_natCast, zpow_natCast]
    rw [le_div_iff₀ hden', div_lt_iff₀ hden', inv_mul_le_iff₀ (by positivity), lt_inv_mul_iff₀ (by positivity)]
    exact ⟨by linarith, by linarith⟩

/-! ### The interval -/

namespace Interval

variable {i : Interval} {places : Int} {c : Nat}

private theorem mul_le_iff {a d : Nat} (hd : 0 < d) (c : Nat) (places : Int) :
    a * 10 ^ places.toNat ≤ c * d * 10 ^ (-places).toNat ↔ (a : ℚ) / d * 10 ^ places ≤ c := by
  have hd' : (0 : ℚ) < d := by exact_mod_cast hd
  rw [← pow_toNat_div, div_mul_div_comm, div_le_iff₀ (by positivity), ← mul_assoc]
  exact_mod_cast Iff.rfl

private theorem le_mul_iff {a d : Nat} (hd : 0 < d) (c : Nat) (places : Int) :
    c * d * 10 ^ (-places).toNat ≤ a * 10 ^ places.toNat ↔ (c : ℚ) ≤ a / d * 10 ^ places := by
  have hd' : (0 : ℚ) < d := by exact_mod_cast hd
  rw [← pow_toNat_div, div_mul_div_comm, le_div_iff₀ (by positivity), ← mul_assoc]
  exact_mod_cast Iff.rfl

theorem bounds_of_contains (hden : 0 < i.den) (h : i.contains places c = true) :
    (i.low : ℚ) / i.den * 10 ^ places ≤ c ∧ (c : ℚ) ≤ i.high / i.den * 10 ^ places := by
  rw [← mul_le_iff hden, ← le_mul_iff hden]
  unfold contains at h
  split at h
  · exact of_decide_eq_true h
  · obtain ⟨hlow, hhigh⟩ := of_decide_eq_true h
    exact ⟨hlow.le, hhigh.le⟩

theorem contains_of_lt (hden : 0 < i.den) (hlow : (i.low : ℚ) / i.den * 10 ^ places < c)
    (hhigh : (c : ℚ) < i.high / i.den * 10 ^ places) : i.contains places c = true := by
  rw [← not_le, ← le_mul_iff hden, not_le] at hlow
  rw [← not_le, ← mul_le_iff hden, not_le] at hhigh
  unfold contains
  split
  · exact decide_eq_true ⟨hlow.le, hhigh.le⟩
  · exact decide_eq_true ⟨hlow, hhigh⟩

theorem contains_of_pick (h : i.pick places = some c) : i.contains places c = true := by
  unfold pick at h
  dsimp only at h
  split at h
  · next hbelow habove =>
    split at h
    · cases h
      exact hbelow
    · cases h
      exact habove
  · next hbelow _ =>
    cases h
    exact hbelow
  · next _ habove =>
    cases h
    exact habove
  · cases h

/-- On a grid that is finer than the interval is wide there is a neighbour of the value in the interval. -/
theorem exists_pick_eq (hden : 0 < i.den) (hlow : i.low < i.value) (hhigh : i.value < i.high)
    (hwide : 1 < ((i.high : ℚ) - i.low) / i.den * 10 ^ places) : ∃ c, i.pick places = some c := by
  have hden' : (0 : ℚ) < i.den := by exact_mod_cast hden
  have hten : (0 : ℚ) < 10 ^ places := by positivity
  have hlow' : (i.low : ℚ) / i.den * 10 ^ places < i.value / i.den * 10 ^ places := by
    have hcast : (i.low : ℚ) < i.value := by exact_mod_cast hlow
    gcongr
  have hhigh' : (i.value : ℚ) / i.den * 10 ^ places < i.high / i.den * 10 ^ places := by
    have hcast : (i.value : ℚ) < i.high := by exact_mod_cast hhigh
    gcongr
  rw [sub_div, sub_mul] at hwide
  obtain ⟨below, hbelow⟩ : ∃ below, below = i.value * 10 ^ places.toNat / (i.den * 10 ^ (-places).toNat) := ⟨_, rfl⟩
  have hfloor : (below : ℚ) ≤ i.value / i.den * 10 ^ places := by
    rw [← le_mul_iff hden, hbelow, Nat.mul_assoc]
    exact Nat.div_mul_le_self _ _
  have hceil : (i.value : ℚ) / i.den * 10 ^ places < (below + 1 : Nat) := by
    rw [← not_le, ← le_mul_iff hden, not_le, hbelow, Nat.mul_assoc]
    exact (Nat.div_lt_iff_lt_mul (Nat.mul_pos hden (Nat.pow_pos (by decide)))).1 (Nat.lt_succ_self _)
  have hnear : i.contains places below = true ∨ i.contains places (below + 1) = true := by
    by_cases hinside : (i.low : ℚ) / i.den * 10 ^ places < below
    · exact .inl (contains_of_lt hden hinside (hfloor.trans_lt hhigh'))
    · -- the lower neighbour lies outside, so the upper one is less than one above the low end
      refine .inr (contains_of_lt hden (hlow'.trans hceil) ?_)
      push_cast
      linarith
  unfold pick
  simp only [Nat.pow_eq, ← hbelow]
  split
  · split
    · exact ⟨_, rfl⟩
    · exact ⟨_, rfl⟩
  · exact ⟨_, rfl⟩
  · exact ⟨_, rfl⟩
  · next hno hno' =>
    rw [hno, hno'] at hnear
    simp at hnear

/-- The search stops at the first grid with a decimal in the interval. -/
theorem exists_search_eq_of_pick {point : Int} {fuel count k : Nat} (hle : count ≤ k) (hlt : k < count + fuel)
    (hpick : ∃ c, i.pick (k - point) = some c) :
    ∃ c j, count ≤ j ∧ j ≤ k ∧ i.search point fuel count = (c, (j : Int) - point) ∧ i.pick (j - point) = some c := by
  induction fuel generalizing count with
  | zero => omega
  | succ fuel ih =>
    rw [search]
    rcases hfirst : i.pick (count - point) with _ | c
    · have hne : count ≠ k := by
        rintro rfl
        rw [hfirst] at hpick
        obtain ⟨c, hc⟩ := hpick
        cases hc
      obtain ⟨c, j, hj, hjk, hsearch, hfound⟩ := ih (show count + 1 ≤ k by omega) (by omega)
      exact ⟨c, j, by omega, hjk, hsearch, hfound⟩
    · exact ⟨c, count, Nat.le_refl _, hle, rfl, hfirst⟩

/-- An interval around a value that is known to sixteen digits. -/
structure Proper (i : Interval) : Prop where
  den : 0 < i.den
  pos : 0 < i.low
  low : i.low < i.value
  high : i.value < i.high
  near : 2 * i.high ≤ 3 * i.value
  wide : i.value < 10 ^ 16 * (i.high - i.low)

theorem proper_ofParts {p : Binary64.Parts} (h : p.Fits) : (ofParts p).Proper := by
  obtain ⟨hpos, hlt, hnarrow⟩ := h
  have hscale : 0 < 1 <<< (p.exponent - 2).toNat := by
    rw [Nat.one_shiftLeft]
    exact Nat.two_pow_pos _
  have hden : 0 < 1 <<< (2 - p.exponent).toNat := by
    rw [Nat.one_shiftLeft]
    exact Nat.two_pow_pos _
  obtain ⟨step, hstep, hwide⟩ : ∃ step, step = (if p.narrow then 1 else 2) ∧ 4 * p.mantissa < 10 ^ 16 * (2 + step) ∧
      0 < step ∧ step ≤ 2 := by
    refine ⟨_, rfl, ?_⟩
    split
    · next hn =>
      have hm := hnarrow hn
      omega
    · omega
  unfold ofParts
  rw [← hstep]
  generalize 1 <<< (p.exponent - 2).toNat = scale at hscale
  have hdiff : (4 * p.mantissa + 2) * scale - (4 * p.mantissa - step) * scale = (2 + step) * scale := by
    rw [← Nat.sub_mul]
    congr 1
    omega
  refine ⟨hden, ?_, ?_, ?_, ?_, ?_⟩
  · exact Nat.mul_pos (by omega) hscale
  · exact Nat.mul_lt_mul_of_pos_right (by omega) hscale
  · exact Nat.mul_lt_mul_of_pos_right (by omega) hscale
  · dsimp only
    rw [← Nat.mul_assoc, ← Nat.mul_assoc 3]
    exact Nat.mul_le_mul_right _ (by omega)
  · dsimp only
    rw [hdiff, ← Nat.mul_assoc]
    exact Nat.mul_lt_mul_of_pos_right hwide.1 hscale

theorem Proper.exists_search_eq (h : i.Proper) : ∃ c j : Nat, 0 < c ∧ c < 10 ^ 18 ∧ j ≤ 17 ∧
    i.search (magnitude i.value i.den) 17 1 = (c, (j : Int) - magnitude i.value i.den) := by
  obtain ⟨hden, hpos, hlow, hhigh, hnear, hwide⟩ := h
  have hden' : (0 : ℚ) < i.den := by exact_mod_cast hden
  obtain ⟨hmag, hmag'⟩ := magnitude_bounds (hpos.trans hlow) hden
  generalize magnitude i.value i.den = point at hmag hmag' ⊢
  have hgrid : 1 < ((i.high : ℚ) - i.low) / i.den * 10 ^ (((17 : Nat) : Int) - point) := by
    -- on this grid the value is at least ten to the sixteenth
    have hwide' : (i.value : ℚ) / 10 ^ 16 < i.high - i.low := by
      rw [div_lt_iff₀ (by norm_num), mul_comm, ← Nat.cast_sub (hlow.trans hhigh).le]
      exact_mod_cast hwide
    have hsum : (10 : ℚ) ^ (point - 1) * 10 ^ (((17 : Nat) : Int) - point) = 10 ^ 16 := by
      rw [← zpow_add₀ (by norm_num), show point - 1 + (((17 : Nat) : Int) - point) = (16 : Nat) by omega,
        zpow_natCast]
    calc (1 : ℚ) = (10 : ℚ) ^ (point - 1) * 10 ^ (((17 : Nat) : Int) - point) / 10 ^ 16 := by rw [hsum]; norm_num
      _ ≤ i.value / i.den * 10 ^ (((17 : Nat) : Int) - point) / 10 ^ 16 := by gcongr
      _ = i.value / 10 ^ 16 / i.den * 10 ^ (((17 : Nat) : Int) - point) := by ring
      _ < (i.high - i.low) / i.den * 10 ^ (((17 : Nat) : Int) - point) := by gcongr
  obtain ⟨c, j, -, hj, hsearch, hpick⟩ :=
    exists_search_eq_of_pick (show 1 ≤ 17 by decide) (show 17 < 1 + 17 by decide)
      (exists_pick_eq hden hlow hhigh hgrid)
  obtain ⟨hclow, hchigh⟩ := bounds_of_contains hden (contains_of_pick hpick)
  refine ⟨c, j, ?_, ?_, hj, hsearch⟩
  · have hpos' : (0 : ℚ) < i.low := by exact_mod_cast hpos
    have hc : (0 : ℚ) < c := lt_of_lt_of_le (by positivity) hclow
    exact_mod_cast hc
  · have hnear' : (i.high : ℚ) ≤ 3 / 2 * i.value := by
      have hcast : (2 : ℚ) * i.high ≤ 3 * i.value := by exact_mod_cast hnear
      linarith
    have hsum : (10 : ℚ) ^ point * 10 ^ ((j : Int) - point) = 10 ^ j := by
      rw [← zpow_add₀ (by norm_num), show point + ((j : Int) - point) = j by omega, zpow_natCast]
    have hc : (c : ℚ) < 10 ^ 18 := by
      calc (c : ℚ) ≤ i.high / i.den * 10 ^ ((j : Int) - point) := hchigh
        _ ≤ 3 / 2 * i.value / i.den * 10 ^ ((j : Int) - point) := by gcongr
        _ = 3 / 2 * (i.value / i.den * 10 ^ ((j : Int) - point)) := by ring
        _ ≤ 3 / 2 * (10 ^ point * 10 ^ ((j : Int) - point)) := by gcongr
        _ = 3 / 2 * 10 ^ j := by rw [hsum]
        _ ≤ 3 / 2 * 10 ^ 17 := by gcongr; norm_num
        _ < 10 ^ 18 := by norm_num
    exact_mod_cast hc

end Interval

/-! ### The digits -/

theorem exists_toDigits_eq_cons {n : Nat} (h : 0 < n) :
    ∃ first rest, Nat.toDigits 10 n = first :: rest ∧ first ≠ '0' := by
  induction n using Nat.strongRecOn with
  | _ n ih =>
    rw [Nat.toDigits_eq_if (by decide)]
    split
    · next hlt =>
      refine ⟨_, [], rfl, fun heq => ?_⟩
      have hchar := Nat.toNat_digitChar_of_lt_ten hlt
      rw [heq] at hchar
      have hzero : ('0' : Char).toNat = 48 := rfl
      omega
    · obtain ⟨first, rest, heq, hne⟩ := ih (n / 10) (by omega) (by omega)
      rw [heq]
      exact ⟨first, rest ++ [Nat.digitChar (n % 10)], rfl, hne⟩

/-- What is written of a positive double: at most eighteen digits, the first of them not zero. -/
structure Digits.Proper (d : Digits) : Prop where
  digits : ∀ c ∈ d.digits, c.isDigit = true
  first : ∃ c rest, d.digits = c :: rest ∧ c ≠ '0'
  length : d.digits.length ≤ 18

theorem proper_shortest {p : Binary64.Parts} (h : p.Fits) : (shortest p).Proper ∧
    (shortest p).point ≤ magnitude (Interval.ofParts p).value (Interval.ofParts p).den + 18 := by
  obtain ⟨c, j, hpos, hlt, hj, hsearch⟩ := (Interval.proper_ofParts h).exists_search_eq
  have hchars : digitChars c = Nat.toDigits 10 c := by simp [digitChars]
  have hlength : (digitChars c).length ≤ 18 := by
    rw [hchars]
    exact (Nat.length_toDigits_le_iff (by decide) (by decide)).2 hlt
  obtain ⟨first, rest, heq, hne⟩ := exists_toDigits_eq_cons hpos
  -- only zeros at the end are dropped, and the first digit is none
  have hdigits : (shortest p).digits = (digitChars c).rdropWhile (· == '0') := by
    unfold shortest
    dsimp only
    rw [hsearch]
    rfl
  have hpoint : (shortest p).point =
      (digitChars c).length - ((j : Int) - magnitude (Interval.ofParts p).value (Interval.ofParts p).den) := by
    unfold shortest
    dsimp only
    rw [hsearch]
  obtain ⟨dropped, hdropped⟩ : (shortest p).digits <+: digitChars c := by
    rw [hdigits]
    exact List.rdropWhile_prefix _ _
  have hsome : (shortest p).digits ≠ [] := by
    rw [hdigits, Ne, List.rdropWhile_eq_nil_iff, hchars, heq]
    intro hall
    exact hne (beq_iff_eq.1 (hall first List.mem_cons_self))
  refine ⟨⟨fun d hd => ?_, ?_, ?_⟩, by omega⟩
  · have hmem : d ∈ digitChars c := hdropped ▸ List.mem_append_left dropped hd
    rw [hchars] at hmem
    exact Nat.isDigit_of_mem_toDigits (by decide) (by decide) hmem
  · rcases hcase : (shortest p).digits with _ | ⟨d, ds⟩
    · exact absurd hcase hsome
    · rw [hcase, hchars, heq] at hdropped
      obtain rfl : d = first := (List.cons.inj hdropped).1
      exact ⟨d, ds, rfl, hne⟩
  · have hsum := congrArg List.length hdropped
    rw [List.length_append] at hsum
    omega

end Decimal

end MergedMining
