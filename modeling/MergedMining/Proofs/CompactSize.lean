import Mathlib.Tactic.SplitIfs
import MergedMining.CompactSize
import MergedMining.Proofs.Bytes

/-!
# Compact sizes in their shortest form

A number can be read from four forms: from one byte if it is below the markers, and from two, four or eight
bytes behind a marker (`decode_eq_some_iff`).  What is written is one of these forms (`form_encode`), so it is
read back with exactly its own bytes taken (`decode_encode`), and all other forms are longer
(`Form.eq_encode_or_length_lt`).  Hence no number is written as the front of another one
(`encode_canonical`).
-/

namespace MergedMining

namespace CompactSize

variable {n width : Nat} {bytes rest e : Bytes}

/-! ### Numbers in a given width -/

theorem readLE_ofNatLE (h : n < 256 ^ width) (rest : Bytes) :
    readLE width (Bytes.ofNatLE width n ++ rest) = some (n, rest) := by
  have hl := Bytes.length_ofNatLE width n
  simp [readLE, hl, Bytes.toNatLE_ofNatLE, Nat.mod_eq_of_lt h]

/-- A number is read from the bytes that would be written for it, and these have to be there. -/
theorem readLE_eq_some_iff : readLE width bytes = some (n, rest) ↔
    n < 256 ^ width ∧ bytes = Bytes.ofNatLE width n ++ rest := by
  constructor
  · intro h
    unfold readLE at h
    split at h
    · rename_i hwidth
      cases h
      have hlength : (bytes.take width).length = width := List.length_take_of_le hwidth
      have hlt := Bytes.toNatLE_lt (bytes.take width)
      have hback := Bytes.ofNatLE_toNatLE (bytes.take width)
      rw [hlength] at hlt hback
      exact ⟨hlt, by rw [hback, List.take_append_drop]⟩
    · cases h
  · rintro ⟨hlt, rfl⟩
    exact readLE_ofNatLE hlt rest

/-! ### Forms -/

/-- The byte strings that a number can be read from. -/
inductive Form (n : Nat) : Bytes → Prop
  | one (h : n ≤ 0xfc) : Form n [UInt8.ofNat n]
  | two (h : n < 256 ^ 2) : Form n (0xfd :: Bytes.ofNatLE 2 n)
  | four (h : n < 256 ^ 4) : Form n (0xfe :: Bytes.ofNatLE 4 n)
  | eight (h : n < 256 ^ 8) : Form n (0xff :: Bytes.ofNatLE 8 n)

private theorem ofNat_ne_marker (h : n ≤ 0xfc) {marker : UInt8} (hmarker : 0xfd ≤ marker.toNat) :
    UInt8.ofNat n ≠ marker := by
  rintro rfl
  rw [UInt8.toNat_ofNat'] at hmarker
  omega

theorem Form.decode_append (h : Form n e) (rest : Bytes) : decode (e ++ rest) = some (n, rest) := by
  cases h with
  | one h =>
    have hvalue : (UInt8.ofNat n).toNat = n := by
      rw [UInt8.toNat_ofNat']
      omega
    rw [List.singleton_append, decode, if_neg (ofNat_ne_marker h (by decide)),
      if_neg (ofNat_ne_marker h (by decide)), if_neg (ofNat_ne_marker h (by decide)), hvalue]
  | two h => exact readLE_ofNatLE h rest
  | four h => exact readLE_ofNatLE h rest
  | eight h => exact readLE_ofNatLE h rest

/-- What a number is read from is one of its forms and the bytes behind it. -/
theorem decode_eq_some_iff : decode bytes = some (n, rest) ↔ ∃ e, Form n e ∧ bytes = e ++ rest := by
  constructor
  · intro h
    cases bytes with
    | nil => cases h
    | cons marker bytes =>
      rw [decode] at h
      split_ifs at h with height hfour htwo
      · obtain ⟨hlt, rfl⟩ := readLE_eq_some_iff.1 h
        exact ⟨_, .eight hlt, by rw [height, List.cons_append]⟩
      · obtain ⟨hlt, rfl⟩ := readLE_eq_some_iff.1 h
        exact ⟨_, .four hlt, by rw [hfour, List.cons_append]⟩
      · obtain ⟨hlt, rfl⟩ := readLE_eq_some_iff.1 h
        exact ⟨_, .two hlt, by rw [htwo, List.cons_append]⟩
      · cases h
        -- a byte that is none of the three markers is below all of them
        have hbyte : marker.toNat ≤ 0xfc := by
          have hlt := marker.toNat_lt
          simp only [← UInt8.toNat_inj, UInt8.reduceToNat] at height hfour htwo
          omega
        exact ⟨_, .one hbyte, by rw [UInt8.ofNat_toNat, List.singleton_append]⟩
  · rintro ⟨e, he, rfl⟩
    exact he.decode_append rest

/-! ### What is written -/

theorem form_encode (h : n < 2 ^ 64) : Form n (encode n) := by
  unfold encode
  split_ifs with hone htwo hfour
  · exact .one hone
  · exact .two (by omega)
  · exact .four (by omega)
  · exact .eight (by omega)

/-- Reading a compact size in front of any bytes gives back the number and those bytes. -/
theorem decode_encode (h : n < 2 ^ 64) (rest : Bytes) : decode (encode n ++ rest) = some (n, rest) :=
  (form_encode h).decode_append rest

/-- A compact size is read to its end, and what follows is left, whatever the number. -/
theorem exists_decode_encode (n : Nat) (rest : Bytes) : ∃ m, decode (encode n ++ rest) = some (m, rest) := by
  by_cases h : n < 2 ^ 64
  · exact ⟨n, decode_encode h rest⟩
  · have hencode : encode n = 0xff :: Bytes.ofNatLE 8 n := by
      rw [encode, if_neg (by omega), if_neg (by omega), if_neg (by omega)]
    refine ⟨Bytes.toNatLE (Bytes.ofNatLE 8 n), ?_⟩
    rw [hencode]
    simp [decode, readLE]

/-- What is written is the shortest form, and the only one of its length. -/
theorem Form.eq_encode_or_length_lt (h : Form n e) : e = encode n ∨ (encode n).length < e.length := by
  unfold encode
  cases h with
  | one h => exact .inl (if_pos h).symm
  | two h =>
    split_ifs with hone htwo hfour
    · exact .inr (by simp)
    · exact .inl rfl
    · omega
    · omega
  | four h =>
    split_ifs with hone htwo hfour
    · exact .inr (by simp)
    · exact .inr (by simp)
    · exact .inl rfl
    · omega
  | eight h =>
    split_ifs with hone htwo hfour
    · exact .inr (by simp)
    · exact .inr (by simp)
    · exact .inr (by simp)
    · exact .inl rfl

/-- A number below `2 ^ 64` is read back from what is written, whatever follows; among all byte strings that it
is read from this is the one and only shortest; and it is the front of no other number's. -/
theorem encode_canonical (n : UInt64) :
    (∀ rest, decode (encode n.toNat ++ rest) = some (n.toNat, rest)) ∧
      (∀ e, decode e = some (n.toNat, []) → e = encode n.toNat ∨ (encode n.toNat).length < e.length) ∧
      ∀ m : UInt64, encode n.toNat <+: encode m.toNat ↔ n = m := by
  have hread (m : UInt64) (rest : Bytes) : decode (encode m.toNat ++ rest) = some (m.toNat, rest) :=
    decode_encode m.toNat_lt rest
  refine ⟨hread n, ?_, fun m => ?_⟩
  · intro e he
    obtain ⟨e', hform, heq⟩ := decode_eq_some_iff.1 he
    rw [List.append_nil] at heq
    exact heq ▸ hform.eq_encode_or_length_lt
  · constructor
    · rintro ⟨rest, hrest⟩
      have hm := hread m []
      rw [List.append_nil, ← hrest, hread n rest] at hm
      have hsame : n.toNat = m.toNat := congrArg Prod.fst (Option.some.inj hm)
      exact UInt64.toNat_inj.1 hsame
    · rintro rfl
      exact List.prefix_refl _

theorem encode_canonical_sample :
    decode [0xfe, 0xfd, 0, 0, 0] = some (253, []) ∧ (encode 253).length < 5 := by
  have hread : decode [0xfe, 0xfd, 0, 0, 0] = some ((253 : UInt64).toNat, []) := by decide
  rcases (encode_canonical 253).2.1 _ hread with heq | hlt
  · exact absurd heq (by decide)
  · exact ⟨hread, hlt⟩

end CompactSize

end MergedMining
