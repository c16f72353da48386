import Mathlib.Algebra.BigOperators.Intervals
import Mathlib.Algebra.BigOperators.Ring.Finset
import Mathlib.Data.Nat.Digits.Defs
import MergedMining.Proofs.Bytes
import MergedMining.Proofs.Hex.Digits

/-!
# Texts in base sixteen

`number` is what the digits of a text amount to.  The reader of numerals takes a run of digits, with at most one
plus sign in front, and gives its number (`parse_eq_ok`), and it reads what is written with zeros in front
(`parse_toHex`).  A text of pairs of digits amounts to the number of its bytes (`number_of_bytes`), and pair by
pair to the bytes themselves (`sum_pairAt_of_bytes`).
-/

namespace MergedMining

namespace Hex

/-- What digits amount to in base sixteen, the most significant digit first. -/
def number (cs : List Char) : Nat := Nat.ofDigits 16 (cs.filterMap digit?).reverse

/-- What the pair of digits at a place amounts to, the places counted in pairs. -/
def pairAt (cs : List Char) (place : Nat) : Nat := number ((cs.drop (2 * place)).take 2)

variable {c : Char} {cs ds : List Char} {limit n : Nat} {s : String} {bs : Bytes}

@[simp] theorem number_nil : number [] = 0 := rfl

theorem number_append (hds : ∀ c ∈ ds, (digit? c).isSome) :
    number (cs ++ ds) = number cs * 16 ^ ds.length + number ds := by
  have hlength : (ds.filterMap digit?).length = ds.length := List.filterMap_length_eq_length.2 hds
  rw [number, List.filterMap_append, List.reverse_append, Nat.ofDigits_append, List.length_reverse, hlength, number,
    number]
  ring

theorem number_cons {d : Nat} (hc : digit? c = some d) (hcs : ∀ c ∈ cs, (digit? c).isSome) :
    number (c :: cs) = d * 16 ^ cs.length + number cs := by
  have hone : number [c] = d := by simp [number, hc]
  rw [← hone]
  exact @number_append [c] cs hcs

theorem number_lt (cs : List Char) : number cs < 16 ^ cs.length := by
  have hdigits : ∀ d ∈ (cs.filterMap digit?).reverse, d < 16 := by
    intro d hd
    rw [List.mem_reverse, List.mem_filterMap] at hd
    obtain ⟨c, -, hc⟩ := hd
    exact (hexDigit_of_digit? hc).1
  refine (Nat.ofDigits_lt_base_pow_length (by decide) hdigits).trans_le ?_
  rw [List.length_reverse]
  exact Nat.pow_le_pow_right (by decide) (List.length_filterMap_le _ _)

theorem number_zeros_append (count : Nat) (cs : List Char) : number (List.replicate count '0' ++ cs) = number cs := by
  have hzero : digit? '0' = some 0 := by decide
  rw [number, List.filterMap_append, List.filterMap_replicate_of_some hzero, List.reverse_append,
    List.reverse_replicate, Nat.ofDigits_append_replicate_zero, number]

/-- The letter case of the digits does not matter. -/
theorem number_map_toLower (cs : List Char) : number (cs.map Char.toLower) = number cs := by
  have hsame : digit? ∘ Char.toLower = digit? := funext digit?_toLower
  rw [number, List.filterMap_map, hsame, number]

/-! ### Numerals -/

/-- Digits are read onto a value as long as it stays below the limit. -/
theorem readDigits_eq_ok {value : Nat} (hvalue : value < limit) :
    Numeral.readDigits 16 limit value cs = .ok n ↔
      (∀ c ∈ cs, (digit? c).isSome) ∧ n = value * 16 ^ cs.length + number cs ∧ n < limit := by
  induction cs generalizing value with
  | nil =>
    rw [Numeral.readDigits]
    constructor
    · intro h
      cases h
      simp [hvalue]
    · rintro ⟨-, rfl, -⟩
      simp
  | cons c cs ih =>
    rw [Numeral.readDigits]
    rcases hc : Numeral.digit? 16 c with _ | d
    · have hno : ¬ (digit? c).isSome := by simp [digit?, hc]
      simp [hno]
    · have hsome : digit? c = some d := hc
      dsimp only
      constructor
      · intro h
        split at h
        · next hlt =>
          obtain ⟨hcs, rfl, hn⟩ := (ih hlt).1 h
          refine ⟨?_, ?_, hn⟩
          · simpa [hsome] using hcs
          · rw [number_cons hsome hcs, List.length_cons, pow_succ]
            ring
        · cases h
      · rintro ⟨hall, hn, hlt⟩
        have hcs : ∀ c ∈ cs, (digit? c).isSome := fun c hc => hall c (List.mem_cons_of_mem _ hc)
        rw [number_cons hsome hcs, List.length_cons, pow_succ] at hn
        have hsum : n = (value * 16 + d) * 16 ^ cs.length + number cs := by
          rw [hn]
          ring
        -- what is read so far never exceeds the whole number
        have hbelow : value * 16 + d ≤ n := by
          have hpow : 0 < 16 ^ cs.length := Nat.pow_pos (by decide)
          have := Nat.le_mul_of_pos_right (value * 16 + d) hpow
          omega
        rw [if_pos (by omega)]
        exact (ih (by omega)).2 ⟨hcs, hsum, hlt⟩

private theorem plus_not_digit : ¬ (digit? '+').isSome := by decide

/-- A numeral is a run of digits, with at most one plus sign in front. -/
theorem parse_eq_ok (hlimit : 0 < limit) :
    Numeral.parse 16 limit s = .ok n ↔
      ∃ cs, (s.toList = cs ∨ s.toList = '+' :: cs) ∧ cs ≠ [] ∧ (∀ c ∈ cs, (digit? c).isSome) ∧ n = number cs ∧
        n < limit := by
  unfold Numeral.parse
  split
  · next hs => simp [hs]
  · next hs =>
    constructor
    · intro h
      cases h
    · rintro ⟨cs, hcs | hcs, hne, hdigits, -⟩
      · rw [hs] at hcs
        subst hcs
        exact absurd (hdigits '+' List.mem_cons_self) plus_not_digit
      · rw [hs] at hcs
        cases hcs
        exact absurd rfl hne
  · next cs hcs hs =>
    have hne : cs ≠ [] := fun hnil => hcs hnil
    rw [readDigits_eq_ok hlimit, Nat.zero_mul, Nat.zero_add]
    constructor
    · rintro ⟨hdigits, hn⟩
      exact ⟨cs, .inr hs, hne, hdigits, hn⟩
    · rintro ⟨cs', hcs | hcs, -, hdigits, hn⟩
      · rw [hs] at hcs
        subst hcs
        exact absurd (hdigits '+' List.mem_cons_self) plus_not_digit
      · rw [hs] at hcs
        cases hcs
        exact ⟨hdigits, hn⟩
  · next hnil _ hsign =>
    rw [readDigits_eq_ok hlimit, Nat.zero_mul, Nat.zero_add]
    constructor
    · rintro ⟨hdigits, hn⟩
      exact ⟨s.toList, .inl rfl, hnil, hdigits, hn⟩
    · rintro ⟨cs, hcs | hcs, -, hdigits, hn⟩
      · rw [hcs]
        exact ⟨hdigits, hn⟩
      · exact absurd hcs (hsign cs)

theorem number_hexDigits (n : Nat) :
    number (Numeral.hexDigits n) = n ∧ ∀ c ∈ Numeral.hexDigits n, (digit? c).isSome := by
  induction n using Nat.strong_induction_on with
  | _ n ih =>
    rw [Numeral.hexDigits]
    by_cases hzero : n = 0
    · simp [hzero]
    · obtain ⟨hnumber, hdigits⟩ := ih (n / 16) (by omega)
      have hlast : digit? (Numeral.hexDigit (n % 16)) = some (n % 16) := digit?_hexDigit (by omega)
      have hone : ∀ c ∈ [Numeral.hexDigit (n % 16)], (digit? c).isSome := by simp [hlast]
      rw [if_neg hzero]
      constructor
      · rw [number_append hone, hnumber, number_cons hlast (by simp)]
        simp
        omega
      · intro c hc
        rcases List.mem_append.1 hc with hc | hc
        · exact hdigits c hc
        · exact hone c hc

/-- What is written with at least one digit is read as the number that was written. -/
theorem parse_toHex {width : Nat} (hwidth : 0 < width) (h : n < limit) :
    Numeral.parse 16 limit (Numeral.toHex width n) = .ok n := by
  obtain ⟨hnumber, hdigits⟩ := number_hexDigits n
  refine (parse_eq_ok (by omega)).2 ⟨(Numeral.hexDigits n).leftpad width '0', .inl ?_, ?_, ?_, ?_, h⟩
  · rw [Numeral.toHex, String.toList_ofList]
  · intro hnil
    have hlength := congrArg List.length hnil
    rw [List.length_leftpad, List.length_nil] at hlength
    omega
  · intro c hc
    rcases List.mem_append.1 hc with hc | hc
    · rw [List.eq_of_mem_replicate hc]
      decide
    · exact hdigits c hc
  · rw [List.leftpad, number_zeros_append, hnumber]

/-! ### Bytes -/

theorem digits_encodeChars (bs : Bytes) : ∀ c ∈ encodeChars bs, (digit? c).isSome := by
  have hdigits := (exists_bytes_iff_isDigits.1 ⟨bs, bytes_encode bs, rfl⟩).1
  rw [isDigits, encode, String.toList_ofList] at hdigits
  exact List.all_eq_true.1 hdigits

private theorem number_byte (b : UInt8) :
    number [Numeral.hexDigit (b.toNat / 16), Numeral.hexDigit (b.toNat % 16)] = b.toNat := by
  have hb := b.toNat_lt
  have hhigh : digit? (Numeral.hexDigit (b.toNat / 16)) = some (b.toNat / 16) := digit?_hexDigit (by omega)
  have hlow : digit? (Numeral.hexDigit (b.toNat % 16)) = some (b.toNat % 16) := digit?_hexDigit (by omega)
  rw [number_cons hhigh (by simp [hlow]), number_cons hlow (by simp)]
  simp
  omega

private theorem encodeChars_cons (b : UInt8) (bs : Bytes) : encodeChars (b :: bs) =
    [Numeral.hexDigit (b.toNat / 16), Numeral.hexDigit (b.toNat % 16)] ++ encodeChars bs := rfl

theorem number_encodeChars (bs : Bytes) : number (encodeChars bs) = Bytes.toNatBE bs := by
  induction bs with
  | nil => rfl
  | cons b bs ih =>
    have hpow : 16 ^ (2 * bs.length) = 256 ^ bs.length := Nat.pow_mul 16 2 _
    rw [encodeChars_cons, number_append (digits_encodeChars bs), number_byte, length_encodeChars, ih, hpow,
      Bytes.toNatBE, Bytes.toNatBE, List.reverse_cons, Bytes.toNatLE_append, List.length_reverse]
    simp [Bytes.toNatLE]
    ring

private theorem sum_pairAt_encodeChars (bs : Bytes) :
    ∑ i ∈ Finset.range bs.length, pairAt (encodeChars bs) i * 256 ^ i = Bytes.toNatLE bs := by
  induction bs with
  | nil => rfl
  | cons b bs ih =>
    have hfirst : pairAt (encodeChars (b :: bs)) 0 = b.toNat := number_byte b
    have hlater (i : Nat) : pairAt (encodeChars (b :: bs)) (i + 1) = pairAt (encodeChars bs) i := rfl
    have hshift : ∑ i ∈ Finset.range bs.length, pairAt (encodeChars bs) i * 256 ^ (i + 1) =
        256 * Bytes.toNatLE bs := by
      rw [← ih, Finset.mul_sum]
      refine Finset.sum_congr rfl fun i _ => ?_
      ring
    simp only [List.length_cons, Finset.sum_range_succ', hfirst, hlater, hshift, Bytes.toNatLE, pow_zero, mul_one]
    exact Nat.add_comm _ _

private theorem encodeChars_of_bytes (h : bytes s = .ok bs) : encodeChars bs = s.toList.map Char.toLower := by
  have htext := congrArg String.toList (encode_of_bytes h)
  rwa [encode, String.toList_ofList, toList_toLower] at htext

/-- A text of pairs of digits amounts to the number of its bytes. -/
theorem number_of_bytes (h : bytes s = .ok bs) : number s.toList = Bytes.toNatBE bs := by
  rw [← number_encodeChars, encodeChars_of_bytes h, number_map_toLower]

/-- The digits of the number of a text are its digits in lowercase. -/
theorem toHex_number {width : Nat} (h : IsDigits (2 * width) s) :
    Numeral.toHex (2 * width) (number s.toList) = s.toLower := by
  obtain ⟨bs, hbs, rfl⟩ := exists_bytes_iff_isDigits.2 h
  have hlt : Bytes.toNatBE bs < 256 ^ bs.length := by
    have hreverse := Bytes.toNatLE_lt bs.reverse
    rwa [List.length_reverse] at hreverse
  have hback : Bytes.ofNatBE bs.length (Bytes.toNatBE bs) = bs := by
    have hreverse := Bytes.ofNatLE_toNatLE bs.reverse
    rw [List.length_reverse] at hreverse
    rw [Bytes.ofNatBE, Bytes.toNatBE, hreverse, List.reverse_reverse]
  rw [number_of_bytes hbs, toHex_eq_encode hlt, hback, encode_of_bytes hbs]

/-- The pairs of digits of a text are its bytes, the first of them the least significant one. -/
theorem sum_pairAt_of_bytes (h : bytes s = .ok bs) :
    ∑ i ∈ Finset.range bs.length, pairAt s.toList i * 256 ^ i = Bytes.toNatLE bs := by
  have hsame (i : Nat) : pairAt s.toList i = pairAt (encodeChars bs) i := by
    rw [encodeChars_of_bytes h, pairAt, pairAt, ← List.map_drop, ← List.map_take, number_map_toLower]
  simp only [hsame]
  exact sum_pairAt_encodeChars bs

end Hex

end MergedMining
