import MergedMining.Proofs.Hex.Digits

/-!
# Byte orders that cancel

A text is turned round pair by pair exactly if it is made of pairs of digits (`exists_reversePairs_iff`), and
word by word exactly if it is made of words of eight digits (`exists_reverseWords_iff`).  Either way twice gives
the text in lowercase, and the words in reverse order, each with its bytes turned round, are the pairs in
reverse order (`reversals_cancel`).
-/

namespace MergedMining

namespace Hex

variable {c : Char} {s t : String}

/-! ### Groups of digits -/

/-- The sixteen digits, the letters among them in both cases. -/
def alphabet : List Char := "0123456789abcdefABCDEF".toList

private theorem mem_alphabet_values : ∀ n ∈ List.range 128,
    (digit? (Char.ofNat n)).isSome → Char.ofNat n ∈ alphabet := by
  decide +kernel

theorem isSome_digit?_iff : (digit? c).isSome ↔ c ∈ alphabet := by
  constructor
  · intro h
    obtain ⟨n, hn⟩ := Option.isSome_iff_exists.1 h
    have hascii : c.toNat ≤ 127 := Char.utf8Size_eq_one_iff.1 (utf8Size_of_digit? hn)
    have hvalues := mem_alphabet_values c.toNat (List.mem_range.2 (Nat.lt_succ_of_le hascii))
    rw [Char.ofNat_toNat] at hvalues
    exact hvalues h
  · have hdigits : (alphabet.all fun c => (digit? c).isSome) = true := by decide
    exact List.all_eq_true.1 hdigits c

/-- A text of digits in groups of so many. -/
def IsGrouped (count : Nat) (s : String) : Prop := (∀ c ∈ s.toList, c ∈ alphabet) ∧ count ∣ s.length

instance (count : Nat) (s : String) : Decidable (IsGrouped count s) :=
  -- by the characters of the text, and not by all characters that there are
  @instDecidableAnd _ _ (List.decidableBAll _ _) inferInstance

/-- A text in groups of pairs of digits is the text of bytes in groups. -/
theorem isGrouped_iff (width : Nat) : IsGrouped (2 * width) s ↔ ∃ bs, bytes s = .ok bs ∧ width ∣ bs.length := by
  have hdigits : isDigits s = true ↔ ∀ c ∈ s.toList, c ∈ alphabet := by
    simp only [isDigits, List.all_eq_true, isSome_digit?_iff]
  constructor
  · rintro ⟨halphabet, k, hk⟩
    have hcount : s.toList.length = 2 * (width * k) := by rw [String.length_toList, hk, Nat.mul_assoc]
    obtain ⟨bs, hbs, hlength⟩ := exists_bytes_iff_isDigits.2 ⟨hdigits.2 halphabet, hcount⟩
    exact ⟨bs, hbs, k, hlength⟩
  · rintro ⟨bs, hbs, hwidth⟩
    obtain ⟨hall, hcount⟩ := exists_bytes_iff_isDigits.1 ⟨bs, hbs, rfl⟩
    rw [String.length_toList] at hcount
    exact ⟨hdigits.1 hall, hcount ▸ Nat.mul_dvd_mul_left 2 hwidth⟩

/-! ### Pairs -/

theorem exists_reversePairs_iff : (∃ t, reversePairs s = .ok t) ↔ IsGrouped 2 s := by
  rw [isGrouped_iff 1]
  constructor
  · rintro ⟨t, ht⟩
    obtain ⟨bs, hbs, -⟩ := reversePairs_eq_ok.1 ht
    exact ⟨bs, hbs, Nat.one_dvd _⟩
  · rintro ⟨bs, hbs, -⟩
    exact ⟨_, reversePairs_eq_ok.2 ⟨bs, hbs, rfl⟩⟩

/-! ### Words -/

theorem exists_reverseWords_iff : (∃ t, reverseWords s = .ok t) ↔ IsGrouped 8 s := by
  rw [isGrouped_iff 4]
  constructor
  · rintro ⟨t, ht⟩
    obtain ⟨bs, hbs, hwords, -⟩ := reverseWords_eq_ok.1 ht
    exact ⟨bs, hbs, Nat.dvd_of_mod_eq_zero hwords⟩
  · rintro ⟨bs, hbs, hwords⟩
    exact ⟨_, reverseWords_eq_ok.2 ⟨bs, hbs, Nat.mod_eq_zero_of_dvd hwords, rfl⟩⟩

/-- Words in reverse order twice turns the letters of a text into lowercase. -/
theorem reverseWords_reverseWords (h : reverseWords s = .ok t) : reverseWords t = .ok s.toLower := by
  obtain ⟨bs, hbs, hwords, rfl⟩ := reverseWords_eq_ok.1 h
  have hlength : (reverseWordBytes bs).length % 4 = 0 := by rwa [length_reverseWordBytes hwords]
  refine reverseWords_eq_ok.2 ⟨reverseWordBytes bs, bytes_encode _, hlength, ?_⟩
  rw [reverseWordBytes_reverseWordBytes hwords, encode_of_bytes hbs]

/-- The two ways to turn a text round have exactly the texts of whole groups as their domains, either way twice
leads back to the text in lowercase, and they differ by the order of the bytes in each word. -/
theorem reversals_cancel (s : String) :
    ((∃ t, reversePairs s = .ok t) ↔ IsGrouped 2 s) ∧
      ((∃ t, reverseWords s = .ok t) ↔ IsGrouped 8 s) ∧
      (∀ t, reversePairs s = .ok t →
        reversePairs t = .ok s.toLower ∧ bytes t = (bytes s).map List.reverse) ∧
      (∀ t, reverseWords s = .ok t → reverseWords t = .ok s.toLower) ∧
      (IsGrouped 8 s → ∃ t words, reverseWords s = .ok t ∧ bytes t = .ok words ∧
        reversePairs s = .ok (encode (swapWords words))) := by
  refine ⟨exists_reversePairs_iff, exists_reverseWords_iff, ?_, fun t => reverseWords_reverseWords, ?_⟩
  · intro t ht
    obtain ⟨bs, hbs, rfl⟩ := reversePairs_eq_ok.1 ht
    refine ⟨reversePairs_reversePairs ht, ?_⟩
    rw [bytes_encode, hbs]
    rfl
  · intro h
    obtain ⟨t, ht⟩ := exists_reverseWords_iff.2 h
    obtain ⟨bs, hbs, hwords, rfl⟩ := reverseWords_eq_ok.1 ht
    refine ⟨_, reverseWordBytes bs, ht, bytes_encode _, ?_⟩
    rw [swapWords_reverseWordBytes hwords]
    exact reversePairs_eq_ok.2 ⟨bs, hbs, rfl⟩

theorem reversals_cancel_sample :
    IsGrouped 8 "0A1B2c3d00112233" ∧
      reversePairs "0A1B2c3d00112233" = .ok "332211003d2c1b0a" ∧
      reversePairs "332211003d2c1b0a" = .ok "0a1b2c3d00112233" ∧
      reverseWords "0A1B2c3d00112233" = .ok "001122330a1b2c3d" ∧
      reverseWords "001122330a1b2c3d" = .ok "0a1b2c3d00112233" ∧
      reversePairs "0A1B2c3d00112233" = .ok (encode (swapWords [0, 0x11, 0x22, 0x33, 0x0a, 0x1b, 0x2c, 0x3d])) := by
  have hlower : "0A1B2c3d00112233".toLower = "0a1b2c3d00112233" := by
    refine String.toList_inj.1 ?_
    rw [toList_toLower]
    decide
  obtain ⟨-, -, hpairs, hwords, hswap⟩ := reversals_cancel "0A1B2c3d00112233"
  rw [hlower] at hpairs hwords
  have hgrouped : IsGrouped 8 "0A1B2c3d00112233" := by decide
  have hpair : reversePairs "0A1B2c3d00112233" = .ok "332211003d2c1b0a" := rfl
  have hword : reverseWords "0A1B2c3d00112233" = .ok "001122330a1b2c3d" := rfl
  refine ⟨hgrouped, hpair, (hpairs _ hpair).1, hword, hwords _ hword, ?_⟩
  obtain ⟨t, words, ht, hbytes, hswapped⟩ := hswap hgrouped
  obtain rfl : "001122330a1b2c3d" = t := Except.ok.inj (hword.symm.trans ht)
  have hread : bytes "001122330a1b2c3d" = .ok [0, 0x11, 0x22, 0x33, 0x0a, 0x1b, 0x2c, 0x3d] := rfl
  obtain rfl := Except.ok.inj (hread.symm.trans hbytes)
  exact hswapped

end Hex

end MergedMining
