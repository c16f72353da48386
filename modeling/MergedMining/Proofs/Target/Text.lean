import MergedMining.Proofs.Hex.Numbers
import MergedMining.Proofs.Target

/-!
# Targets and their texts

A text is a target exactly if it has one to sixty-four digits, and is then its number in base sixteen
(`parse_eq_ok`).  With the last byte first it has to be made of pairs of digits, and is the sum of its bytes
(`parseLE_eq_ok_iff`).
-/

namespace MergedMining

namespace Target

open Hex (isDigits number pairAt)

variable {s : String} {t : Target}

/-- A text of one to sixty-four digits. -/
def IsText (s : String) : Prop := isDigits s = true ∧ 1 ≤ s.length ∧ s.length ≤ 64

/-- A text of one to thirty-two pairs of digits. -/
def IsPairText (s : String) : Prop := isDigits s = true ∧ Even s.length ∧ 2 ≤ s.length ∧ s.length ≤ 64

private theorem eq_of_toNat_eq {u : Target} (h : t.toNat = u.toNat) : t = u := by
  cases t
  exact Target.mk.injEq .. ▸ h

private theorem toNat_ofBytesBE {bs : Bytes} (h : bs.length = 32) : (ofBytesBE bs).toNat = Bytes.toNatBE bs := by
  have hlt := Bytes.toNatLE_lt bs.reverse
  rw [List.length_reverse, h] at hlt
  have hsize : size = 256 ^ 32 := by decide
  exact Nat.mod_eq_of_lt (hsize ▸ hlt)

/-- Up to sixty-four digits, with zeros in front of them, are thirty-two bytes. -/
private theorem exists_bytes_padded (hdigits : isDigits s = true) (hlength : s.length ≤ 64) :
    ∃ bs, Hex.bytes (String.ofList (s.toList.leftpad 64 '0')) = .ok bs ∧ bs.length = 32 ∧
      Bytes.toNatBE bs = number s.toList := by
  have hpadded : Hex.IsDigits (2 * 32) (String.ofList (s.toList.leftpad 64 '0')) := by
    refine ⟨List.all_eq_true.2 fun c hc => ?_, ?_⟩
    · rw [String.toList_ofList] at hc
      rcases List.mem_append.1 hc with hc | hc
      · rw [List.eq_of_mem_replicate hc]
        decide
      · exact List.all_eq_true.1 hdigits c hc
    · rw [String.toList_ofList, List.length_leftpad, String.length_toList]
      omega
  obtain ⟨bs, hbs, hcount⟩ := Hex.exists_bytes_iff_isDigits.2 hpadded
  refine ⟨bs, hbs, hcount, ?_⟩
  rw [← Hex.number_of_bytes hbs, String.toList_ofList, List.leftpad, Hex.number_zeros_append]

/-- What is read with zeros in front of it is made of digits. -/
private theorem isDigits_of_padded {bs : Bytes} (h : Hex.decode (String.ofList (s.toList.leftpad 64 '0')) = .ok bs) :
    isDigits s = true := by
  have hbytes : Hex.bytes (String.ofList (s.toList.leftpad 64 '0')) = .ok bs := by rw [Hex.bytes, h]
  obtain ⟨hpadded, -⟩ := Hex.exists_bytes_iff_isDigits.1 ⟨bs, hbytes, rfl⟩
  rw [isDigits, String.toList_ofList] at hpadded
  exact List.all_eq_true.2 fun c hc => List.all_eq_true.1 hpadded c (List.mem_append_right _ hc)

theorem parse_eq_ok : parse s = .ok t ↔ IsText s ∧ t.toNat = number s.toList := by
  unfold parse
  constructor
  · intro h
    split at h
    · cases h
    · next hsize =>
      dsimp only at h
      split at h
      · cases h
      · split at h
        · cases h
        · cases h
      · next bs hbs =>
        split at h
        · cases h
        · cases h
          have hdigits := isDigits_of_padded hbs
          rw [Hex.utf8ByteSize_of_digits hdigits, String.length_toList] at hsize
          have hlength : s.length ≤ 64 := by omega
          obtain ⟨bs', hbs', hcount, hnumber⟩ := exists_bytes_padded hdigits hlength
          obtain rfl : bs' = bs := Except.ok.inj ((Hex.decode_of_bytes hbs').symm.trans hbs)
          refine ⟨⟨hdigits, by omega, hlength⟩, ?_⟩
          rw [toNat_ofBytesBE hcount, hnumber]
  · rintro ⟨⟨hdigits, hone, hlength⟩, hnumber⟩
    obtain ⟨bs, hbs, hcount, hvalue⟩ := exists_bytes_padded hdigits hlength
    have hsize : ¬ (s.utf8ByteSize = 0 ∨ 64 < s.utf8ByteSize) := by
      rw [Hex.utf8ByteSize_of_digits hdigits, String.length_toList]
      omega
    have hwhole : ¬ (String.ofList (s.toList.leftpad 64 '0')).utf8ByteSize ≠ 64 := by
      rw [Hex.length_of_decode (Hex.decode_of_bytes hbs), hcount]
      decide
    rw [if_neg hsize]
    simp only [Hex.decode_of_bytes hbs, if_neg hwhole, Except.ok.injEq]
    exact eq_of_toNat_eq (by rw [toNat_ofBytesBE hcount, hvalue, hnumber])

theorem exists_parse_iff : (∃ t, parse s = .ok t) ↔ IsText s := by
  constructor
  · rintro ⟨t, ht⟩
    exact (parse_eq_ok.1 ht).1
  · intro h
    have hlt : number s.toList < size := by
      have hpow : 16 ^ s.toList.length ≤ 16 ^ 64 := Nat.pow_le_pow_right (by decide) (String.length_toList ▸ h.2.2)
      exact (Hex.number_lt s.toList).trans_le hpow
    exact ⟨⟨number s.toList, hlt⟩, parse_eq_ok.2 ⟨h, rfl⟩⟩

/-! ### The last byte first -/

/-- A text of pairs of digits is the text of half as many bytes. -/
private theorem isPairText_iff : IsPairText s ↔ ∃ bs, Hex.bytes s = .ok bs ∧ 0 < bs.length ∧ bs.length ≤ 32 := by
  constructor
  · rintro ⟨hdigits, heven, htwo, hlength⟩
    have hcount : s.toList.length = 2 * (s.length / 2) := by
      rw [String.length_toList, Nat.two_mul_div_two_of_even heven]
    obtain ⟨bs, hbs, hbytes⟩ := Hex.exists_bytes_iff_isDigits.2 ⟨hdigits, hcount⟩
    exact ⟨bs, hbs, by omega, by omega⟩
  · rintro ⟨bs, hbs, hpos, hle⟩
    obtain ⟨hdigits, hcount⟩ := Hex.exists_bytes_iff_isDigits.1 ⟨bs, hbs, rfl⟩
    rw [String.length_toList] at hcount
    refine ⟨hdigits, ?_, by omega, by omega⟩
    rw [hcount]
    exact even_two_mul _

private theorem length_of_bytes {bs : Bytes} (h : Hex.bytes s = .ok bs) : s.length / 2 = bs.length := by
  obtain ⟨-, hcount⟩ := Hex.exists_bytes_iff_isDigits.1 ⟨bs, h, rfl⟩
  rw [← String.length_toList, hcount]
  omega

private theorem toNat_ofNat_toNatLE {bs : Bytes} (h : bs.length ≤ 32) :
    (ofNat (Bytes.toNatLE bs)).toNat = Bytes.toNatLE bs := by
  have hpow : 256 ^ bs.length ≤ 256 ^ 32 := Nat.pow_le_pow_right (by decide) h
  exact Nat.mod_eq_of_lt ((Bytes.toNatLE_lt bs).trans_le hpow)

theorem parseLE_eq_ok_iff : parseLE s = .ok t ↔
    IsPairText s ∧ t.toNat = ∑ i ∈ Finset.range (s.length / 2), pairAt s.toList i * 256 ^ i := by
  rw [parseLE_eq_ok]
  constructor
  · rintro ⟨bs, hbs, hpos, hle, rfl⟩
    refine ⟨isPairText_iff.2 ⟨bs, hbs, hpos, hle⟩, ?_⟩
    rw [length_of_bytes hbs, Hex.sum_pairAt_of_bytes hbs, toNat_ofNat_toNatLE hle]
  · rintro ⟨htext, hsum⟩
    obtain ⟨bs, hbs, hpos, hle⟩ := isPairText_iff.1 htext
    rw [length_of_bytes hbs, Hex.sum_pairAt_of_bytes hbs] at hsum
    exact ⟨bs, hbs, hpos, hle, eq_of_toNat_eq (by rw [toNat_ofNat_toNatLE hle, hsum])⟩

theorem exists_parseLE_iff : (∃ t, parseLE s = .ok t) ↔ IsPairText s := by
  constructor
  · rintro ⟨t, ht⟩
    exact (parseLE_eq_ok_iff.1 ht).1
  · intro h
    obtain ⟨bs, hbs, hpos, hle⟩ := isPairText_iff.1 h
    exact ⟨_, parseLE_eq_ok.2 ⟨bs, hbs, hpos, hle, rfl⟩⟩

/-! ### Writing -/

private theorem toNatLE_reverse_toBytesBE (t : Target) : Bytes.toNatLE t.toBytesBE.reverse = t.toNat := by
  have hsize : size = 256 ^ 32 := by decide
  rw [toBytesBE, Bytes.ofNatBE, List.reverse_reverse, Bytes.toNatLE_ofNatLE]
  exact Nat.mod_eq_of_lt (hsize ▸ t.isLt)

theorem parse_toText (t : Target) : parse t.toText = .ok t := by
  have hlength : t.toBytesBE.length = 32 := Bytes.length_ofNatBE 32 t.toNat
  refine parse_encode_eq_ok.2 ⟨by omega, by omega, eq_of_toNat_eq ?_⟩
  rw [toNat_ofBytesBE hlength, Bytes.toNatBE, toNatLE_reverse_toBytesBE]

theorem parseLE_reverse (t : Target) : parseLE (Hex.encode t.toBytesBE.reverse) = .ok t := by
  have hlength : t.toBytesBE.reverse.length = 32 := by simp [toBytesBE]
  refine parseLE_eq_ok.2 ⟨_, Hex.bytes_encode _, by omega, by omega, eq_of_toNat_eq ?_⟩
  rw [toNat_ofNat_toNatLE (by omega), toNatLE_reverse_toBytesBE]

/-- Texts are targets exactly if they have digits enough and not too many, in either byte order, and a target is
read from its own text in both. -/
theorem decodes_texts (s : String) (t : Target) :
    ((∃ u, parse s = .ok u) ↔ IsText s) ∧
      (parse s = .ok t ↔ IsText s ∧ t.toNat = number s.toList) ∧
      ((∃ u, parseLE s = .ok u) ↔ IsPairText s) ∧
      (parseLE s = .ok t ↔
        IsPairText s ∧ t.toNat = ∑ i ∈ Finset.range (s.length / 2), pairAt s.toList i * 256 ^ i) ∧
      parse t.toText = .ok t ∧
      ∃ reversed, Hex.reversePairs t.toText = .ok reversed ∧ parseLE reversed = .ok t := by
  have hreversed : Hex.reversePairs t.toText = .ok (Hex.encode t.toBytesBE.reverse) :=
    Hex.reversePairs_eq_ok.2 ⟨t.toBytesBE, Hex.bytes_encode _, rfl⟩
  exact ⟨exists_parse_iff, parse_eq_ok, exists_parseLE_iff, parseLE_eq_ok_iff, parse_toText t, _, hreversed,
    parseLE_reverse t⟩

end Target

end MergedMining
