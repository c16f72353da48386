import MergedMining.Proofs.Hex.Numbers
import MergedMining.Stratum.Field
import MergedMining.Target

/-!
# Fields that hold a number

Every field is read back from its own text.  A field of eight digits is also read from seven digits behind a plus sign
(`parse_eq_ok_iff`), which is a text of eight bytes but not of eight digits, and so are the compact bits of a target.
-/

namespace MergedMining

open Hex (IsDigits)

/-! ### Eight bytes -/

namespace Hex

variable {s : String} {n : Nat}

/-- A plus sign and seven digits: eight bytes, of which one is no digit. -/
def IsSigned (s : String) : Prop := ∃ digits, s = "+" ++ digits ∧ IsDigits 7 digits

private theorem toList_append_plus (digits : String) : ("+" ++ digits).toList = '+' :: digits.toList := by
  rw [String.toList_append]
  rfl

private theorem size_of_sign {digits : String} (h : isDigits digits = true) :
    ("+" ++ digits).utf8ByteSize = digits.toList.length + 1 := by
  rw [String.utf8ByteSize_append, utf8ByteSize_of_digits h]
  exact Nat.add_comm 1 _

theorem IsDigits.number_lt {count : Nat} (h : IsDigits count s) : Hex.number s.toList < 16 ^ count :=
  h.2 ▸ Hex.number_lt s.toList

private theorem toList_ne_nil {count : Nat} (h : IsDigits (count + 1) s) : s.toList ≠ [] := by
  intro hnil
  have hlength := h.2
  rw [hnil] at hlength
  cases hlength

/-- Eight bytes are a numeral exactly if they are eight digits, or seven behind a plus sign. -/
private theorem parse_eight : (s.utf8ByteSize = 8 ∧ Numeral.parse 16 UInt32.size s = .ok n) ↔
    (IsDigits 8 s ∧ n = Hex.number s.toList) ∨
      ∃ digits, s = "+" ++ digits ∧ IsDigits 7 digits ∧ n = Hex.number digits.toList := by
  rw [parse_eq_ok (by decide)]
  constructor
  · rintro ⟨hsize, cs, hcs | hcs, -, hdigits, hn, -⟩
    · subst hcs
      have hall : isDigits s = true := List.all_eq_true.2 hdigits
      exact .inl ⟨⟨hall, (utf8ByteSize_of_digits hall).symm.trans hsize⟩, hn⟩
    · have hs : s = "+" ++ String.ofList cs := by
        rw [← String.toList_inj, toList_append_plus, String.toList_ofList, hcs]
      have hall : isDigits (String.ofList cs) = true := by
        rw [isDigits, String.toList_ofList]
        exact List.all_eq_true.2 hdigits
      rw [hs, size_of_sign hall] at hsize
      refine .inr ⟨_, hs, ⟨hall, by omega⟩, ?_⟩
      rw [hn, String.toList_ofList]
  · rintro (⟨h, rfl⟩ | ⟨digits, rfl, h, rfl⟩)
    · exact ⟨(utf8ByteSize_of_digits h.1).trans h.2, s.toList, .inl rfl, toList_ne_nil h, List.all_eq_true.1 h.1, rfl,
        h.number_lt⟩
    · have hsize : ("+" ++ digits).utf8ByteSize = 8 := by rw [size_of_sign h.1, h.2]
      exact ⟨hsize, digits.toList, .inr (toList_append_plus digits), toList_ne_nil h, List.all_eq_true.1 h.1, rfl,
        h.number_lt.trans (by decide)⟩

/-- Seven digits behind a plus sign are printed with a zero in its place. -/
private theorem isDigits_zero {digits : String} (h : IsDigits 7 digits) :
    IsDigits 8 ("0" ++ digits) ∧ Hex.number ("0" ++ digits).toList = Hex.number digits.toList ∧
      ("0" ++ digits).toLower = "0" ++ digits.toLower := by
  have htext : ("0" ++ digits).toList = '0' :: digits.toList := by
    rw [String.toList_append]
    rfl
  refine ⟨⟨?_, ?_⟩, ?_, ?_⟩
  · rw [isDigits, htext, List.all_cons, ← isDigits, h.1]
    rfl
  · rw [htext, List.length_cons, h.2]
  · rw [htext]
    exact number_zeros_append 1 digits.toList
  · rw [← String.toList_inj, toList_toLower, htext, String.toList_append, toList_toLower]
    rfl

end Hex

namespace Stratum

variable {role : WordRole} {s : String}

namespace Word

variable {w : Word role}

theorem parse_toText (w : Word role) : parse role w.toText = .ok w := by
  have hsize : w.toText.utf8ByteSize = 8 := by
    have hbytes : w.toText = Hex.encode w.toBytes := @Hex.toHex_eq_encode 4 _ w.number.toNat_lt
    rw [hbytes, Hex.utf8ByteSize_encode, toBytes, Bytes.length_ofNatBE]
  have hread : Numeral.parse 16 UInt32.size w.toText = .ok w.number.toNat :=
    Hex.parse_toHex (by decide) w.number.toNat_lt
  rw [parse, if_neg (by simp [hsize]), hread]
  simp

/-- A word is a numeral of eight bytes. -/
private theorem parse_eq_ok :
    parse role s = .ok w ↔ s.utf8ByteSize = 8 ∧ Numeral.parse 16 UInt32.size s = .ok w.number.toNat := by
  unfold parse
  by_cases hsize : s.utf8ByteSize = 8
  · rw [if_neg (by simp [hsize])]
    constructor
    · intro h
      split at h
      · cases h
      · next n hn =>
        cases h
        obtain ⟨-, -, -, -, -, hlt⟩ := (Hex.parse_eq_ok (by decide)).1 hn
        refine ⟨hsize, ?_⟩
        rw [hn, UInt32.toNat_ofNat_of_lt' hlt]
    · rintro ⟨-, hn⟩
      simp [hn]
  · simp [hsize]

/-- The text of a word is the number that is written in it. -/
private theorem toText_eq_iff {n : Nat} (h : IsDigits 8 s) (hn : n = Hex.number s.toList) :
    w.number.toNat = n ↔ w.toText = s.toLower := by
  have hprint : Numeral.toHex 8 n = s.toLower := hn ▸ @Hex.toHex_number s 4 h
  constructor
  · rintro rfl
    exact hprint
  · intro htext
    have hread : Numeral.parse 16 UInt32.size (Numeral.toHex 8 w.number.toNat) = .ok w.number.toNat :=
      Hex.parse_toHex (by decide) w.number.toNat_lt
    have hlt : n < UInt32.size := hn ▸ h.number_lt
    rw [show Numeral.toHex 8 w.number.toNat = Numeral.toHex 8 n from htext.trans hprint.symm,
      Hex.parse_toHex (by decide) hlt] at hread
    exact (Except.ok.inj hread).symm

/-- A word is read from eight digits, which it is printed as in lowercase, or from seven behind a plus sign. -/
theorem parse_eq_ok_iff : parse role s = .ok w ↔
    (IsDigits 8 s ∧ w.toText = s.toLower) ∨
      ∃ digits, s = "+" ++ digits ∧ IsDigits 7 digits ∧ w.toText = "0" ++ digits.toLower := by
  rw [parse_eq_ok, Hex.parse_eight]
  refine or_congr (and_congr_right fun h => toText_eq_iff h rfl) (exists_congr fun digits => ?_)
  refine and_congr_right fun _ => and_congr_right fun h => ?_
  obtain ⟨hzero, hnumber, hlower⟩ := Hex.isDigits_zero h
  rw [← hlower]
  exact toText_eq_iff hzero hnumber.symm

theorem exists_parse_iff : (∃ w : Word role, parse role s = .ok w) ↔ IsDigits 8 s ∨ Hex.IsSigned s := by
  constructor
  · rintro ⟨w, hw⟩
    rcases parse_eq_ok_iff.1 hw with ⟨h, -⟩ | ⟨digits, rfl, h, -⟩
    · exact .inl h
    · exact .inr ⟨digits, rfl, h⟩
  · intro h
    obtain ⟨n, hsize, hn⟩ : ∃ n, s.utf8ByteSize = 8 ∧ Numeral.parse 16 UInt32.size s = .ok n := by
      rcases h with h | ⟨digits, rfl, h⟩
      · exact ⟨_, Hex.parse_eight.2 (.inl ⟨h, rfl⟩)⟩
      · exact ⟨_, Hex.parse_eight.2 (.inr ⟨digits, rfl, h, rfl⟩)⟩
    exact ⟨⟨UInt32.ofNat n⟩, by rw [parse, if_neg (by simp [hsize]), hn]⟩

end Word

theorem JobId.parse_toText (j : JobId) : parse j.toText = .ok j := by
  have hread : Numeral.parse 16 UInt64.size j.toText = .ok j.number.toNat :=
    Hex.parse_toHex (by decide) j.number.toNat_lt
  rw [parse, hread]
  simp

theorem Extranonce.parse_toText (e : Extranonce) : parse e.toText = .ok e := by
  rw [parse, toText, Hex.decode_encode]

/-! ### Compact bits -/

private theorem ofBits_of_parse {n : Nat} (h : s.utf8ByteSize = 8 ∧ Numeral.parse 16 UInt32.size s = .ok n) :
    Target.ofBits s = Target.ofCompact n := by
  obtain ⟨hsize, hn⟩ := h
  rw [Target.ofBits, if_neg (by simp [hsize]), hn]

theorem ofBits_of_isDigits (h : IsDigits 8 s) : Target.ofBits s = Target.ofCompact (Hex.number s.toList) :=
  ofBits_of_parse (Hex.parse_eight.2 (.inl ⟨h, rfl⟩))

theorem ofBits_of_sign {digits : String} (h : IsDigits 7 digits) :
    Target.ofBits ("+" ++ digits) = Target.ofCompact (Hex.number digits.toList) :=
  ofBits_of_parse (Hex.parse_eight.2 (.inr ⟨digits, rfl, h, rfl⟩))

theorem exists_ofBits_eq_error (hdigits : ¬ IsDigits 8 s) (hsigned : ¬ Hex.IsSigned s) :
    ∃ e, Target.ofBits s = .error e := by
  unfold Target.ofBits
  by_cases hsize : s.utf8ByteSize = 8
  · rw [if_neg (by simp [hsize])]
    rcases hn : Numeral.parse 16 UInt32.size s with e | n
    · exact ⟨_, rfl⟩
    · rcases Hex.parse_eight.1 ⟨hsize, hn⟩ with ⟨h, -⟩ | ⟨digits, hs, h, -⟩
      · exact absurd h hdigits
      · exact absurd ⟨digits, hs, h⟩ hsigned
  · rw [if_pos hsize]
    exact ⟨_, rfl⟩

/-- A field of eight digits is read from eight digits, and from seven of them behind a plus sign; a word is
printed as its digits in lowercase, and compact bits are the target that their number says. -/
theorem reads_eight (role : WordRole) (s : String) :
    ((∃ w : Word role, Word.parse role s = .ok w) ↔ IsDigits 8 s ∨ Hex.IsSigned s) ∧
      (∀ w : Word role, Word.parse role s = .ok w ↔
        (IsDigits 8 s ∧ w.toText = s.toLower) ∨
          ∃ digits, s = "+" ++ digits ∧ IsDigits 7 digits ∧ w.toText = "0" ++ digits.toLower) ∧
      (IsDigits 8 s → Target.ofBits s = Target.ofCompact (Hex.number s.toList)) ∧
      (∀ digits, s = "+" ++ digits → IsDigits 7 digits →
        Target.ofBits s = Target.ofCompact (Hex.number digits.toList)) ∧
      (¬ IsDigits 8 s → ¬ Hex.IsSigned s → ∃ e, Target.ofBits s = .error e) := by
  refine ⟨Word.exists_parse_iff, fun w => Word.parse_eq_ok_iff, ofBits_of_isDigits, ?_, exists_ofBits_eq_error⟩
  rintro digits rfl h
  exact ofBits_of_sign h

theorem reads_eight_sample :
    IsDigits 8 "1D00FFFF" ∧ Target.ofBits "1D00FFFF" = .ok Target.highest ∧
      IsDigits 7 "300ffff" ∧ Target.ofBits "+300ffff" = .ok (Target.ofNat 0xffff) ∧
      ¬ IsDigits 8 "1d00fffg" ∧ ¬ Hex.IsSigned "1d00fffg" ∧ ∃ e, Target.ofBits "1d00fffg" = .error e := by
  have hdigits : IsDigits 8 "1D00FFFF" := by decide
  have hbehind : IsDigits 7 "300ffff" := by decide
  have hnone : ¬ IsDigits 8 "1d00fffg" := by decide
  have hunsigned : ¬ Hex.IsSigned "1d00fffg" := by
    rintro ⟨digits, hs, -⟩
    have hfirst : "1d00fffg".toList.head? = some '+' := by
      rw [hs, Hex.toList_append_plus]
      rfl
    exact absurd hfirst (by decide)
  refine ⟨hdigits, ?_, hbehind, ?_, hnone, hunsigned, ?_⟩
  · rw [(reads_eight .nonce "1D00FFFF").2.2.1 hdigits]
    rfl
  · rw [(reads_eight .nonce "+300ffff").2.2.2.1 "300ffff" rfl hbehind]
    rfl
  · exact (reads_eight .nonce "1d00fffg").2.2.2.2 hnone hunsigned

/-- Neither words nor compact bits are only read from eight digits. -/
theorem not_isDigits_of_parse :
    ¬ (∀ s, (∃ w : Nonce, Word.parse .nonce s = .ok w) → IsDigits 8 s) ∧
      ¬ ∀ s, ¬ IsDigits 8 s → ∃ e, Target.ofBits s = .error e := by
  constructor
  · intro h
    have hread : Word.parse .nonce "+1234567" = .ok ⟨0x1234567⟩ := by rfl
    exact absurd (h "+1234567" ⟨_, hread⟩) (by decide)
  · intro h
    have hread : Target.ofBits "+300ffff" = .ok (Target.ofNat 0xffff) := by rfl
    obtain ⟨e, he⟩ := h "+300ffff" (by decide)
    rw [hread] at he
    cases he

end Stratum

end MergedMining
