import MergedMining.Proofs.Bytes
import MergedMining.Proofs.Hex.Digits
import MergedMining.Target

/-!
# Targets given as text

The text of a target with its last byte first is read as the number of its bytes, exactly if it has at least one
byte and at most thirty-two (`parseLE_eq_ok`).
-/

namespace MergedMining

namespace Target

private theorem toNatLE_zeros (count : Nat) : Bytes.toNatLE (List.replicate count 0) = 0 := by
  induction count with
  | zero => rfl
  | succ count ih => simp [List.replicate_succ, Bytes.toNatLE, ih]

private theorem encodeChars_zeros (count : Nat) :
    Hex.encodeChars (List.replicate count 0) = List.replicate (2 * count) '0' := by
  induction count with
  | zero => rfl
  | succ count ih =>
    have hzero : Hex.encodeChars [0] = ['0', '0'] := by decide
    have hsplit : List.replicate (count + 1) (0 : UInt8) = [0] ++ List.replicate count 0 := rfl
    rw [hsplit, Hex.encodeChars_append, hzero, ih]
    rfl

/-- Zeros in front of a text, up to thirty-two bytes of digits, are zeros in front of its bytes. -/
private theorem leftpad_encodeChars {bs : Bytes} (h : bs.length ≤ 32) :
    (Hex.encodeChars bs).leftpad 64 '0' = Hex.encodeChars (List.replicate (32 - bs.length) 0 ++ bs) := by
  have hcount : 64 - 2 * bs.length = 2 * (32 - bs.length) := by omega
  rw [Hex.encodeChars_append, encodeChars_zeros, List.leftpad, Hex.length_encodeChars, hcount]

private theorem toNatBE_zeros_append (count : Nat) (bs : Bytes) :
    Bytes.toNatBE (List.replicate count 0 ++ bs) = Bytes.toNatBE bs := by
  rw [Bytes.toNatBE, List.reverse_append, List.reverse_replicate, Bytes.toNatLE_append, toNatLE_zeros, Nat.mul_zero,
    Nat.add_zero, Bytes.toNatBE]

theorem parse_encode_eq_ok {bs : Bytes} {t : Target} :
    parse (Hex.encode bs) = .ok t ↔ 0 < bs.length ∧ bs.length ≤ 32 ∧ t = ofBytesBE bs := by
  have hsize := Hex.utf8ByteSize_encode bs
  unfold parse
  by_cases hbad : (Hex.encode bs).utf8ByteSize = 0 ∨ 64 < (Hex.encode bs).utf8ByteSize
  · rw [if_pos hbad]
    constructor
    · intro h
      cases h
    · rintro ⟨h0, h32, -⟩
      omega
  · have h0 : 0 < bs.length := by omega
    have h32 : bs.length ≤ 32 := by omega
    have hpadded : String.ofList ((Hex.encode bs).toList.leftpad 64 '0') =
        Hex.encode (List.replicate (32 - bs.length) 0 ++ bs) := by
      rw [Hex.encode, String.toList_ofList, leftpad_encodeChars h32, Hex.encode]
    have hwhole : ¬ (Hex.encode (List.replicate (32 - bs.length) 0 ++ bs)).utf8ByteSize ≠ 64 := by
      rw [Hex.utf8ByteSize_encode, List.length_append, List.length_replicate]
      omega
    rw [if_neg hbad, hpadded]
    simp only [Hex.decode_encode, if_neg hwhole, Except.ok.injEq, h0, h32, true_and]
    rw [ofBytesBE, toNatBE_zeros_append, ← ofBytesBE, eq_comm]

/-- A target with its last byte first is read exactly from one to thirty-two pairs of digits, and is their number. -/
theorem parseLE_eq_ok {s : String} {t : Target} :
    parseLE s = .ok t ↔
      ∃ bs, Hex.bytes s = .ok bs ∧ 0 < bs.length ∧ bs.length ≤ 32 ∧ t = ofNat (Bytes.toNatLE bs) := by
  have hreverse (bs : Bytes) : ofBytesBE bs.reverse = ofNat (Bytes.toNatLE bs) := by
    rw [ofBytesBE, Bytes.toNatBE, List.reverse_reverse]
  unfold parseLE
  rcases hpairs : Hex.reversePairs s with e | reversed
  · constructor
    · intro h
      cases h
    · rintro ⟨bs, hbs, -⟩
      rw [Hex.reversePairs_eq_ok.2 ⟨bs, hbs, rfl⟩] at hpairs
      cases hpairs
  · obtain ⟨bs, hbs, rfl⟩ := Hex.reversePairs_eq_ok.1 hpairs
    dsimp only
    rw [parse_encode_eq_ok, List.length_reverse, hreverse]
    constructor
    · rintro ⟨h0, h32, rfl⟩
      exact ⟨bs, hbs, h0, h32, rfl⟩
    · rintro ⟨bs', hbs', h0, h32, rfl⟩
      rw [hbs] at hbs'
      cases hbs'
      exact ⟨h0, h32, rfl⟩

end Target

end MergedMining
