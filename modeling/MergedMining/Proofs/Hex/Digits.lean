import MergedMining.Proofs.Hex

/-!
# Which texts are byte strings

A text is read exactly if it is made of pairs of digits (`exists_bytes_iff_isDigits`), and two such texts in a
row are read as the bytes of both (`bytes_append`).
-/

namespace MergedMining

namespace Hex

/-! ### Reading in a row -/

/-- Where a text starts is only seen in faults. -/
private theorem decodePairs_of_position {position : Nat} {cs : List Char} {bs : Bytes}
    (h : decodePairs position cs = .ok bs) (other : Nat) : decodePairs other cs = .ok bs := by
  fun_induction decodePairs position cs generalizing bs other with
  | case1 => exact h
  | case2 => cases h
  | case3 => cases h
  | case4 => cases h
  | case5 => cases h
  | case6 position a b rest high ha low hb bytes hrest ih =>
    have hlater := ih hrest (other + 2)
    rw [decodePairs, ha, hb]
    simpa only [hlater] using h

private theorem decodePairs_append {position : Nat} {cs ds : List Char} {as bs : Bytes}
    (hc : decodePairs position cs = .ok as) (hd : decodePairs position ds = .ok bs) :
    decodePairs position (cs ++ ds) = .ok (as ++ bs) := by
  fun_induction decodePairs position cs generalizing as with
  | case1 =>
    cases hc
    exact hd
  | case2 => cases hc
  | case3 => cases hc
  | case4 => cases hc
  | case5 => cases hc
  | case6 position a b rest high ha low hb bytes hrest ih =>
    cases hc
    have hlater := ih hrest (decodePairs_of_position hd _)
    rw [List.cons_append, List.cons_append, decodePairs, ha, hb]
    simp only [hlater, List.cons_append]

theorem decodePairs_of_bytes {s : String} {bs : Bytes} (h : bytes s = .ok bs) :
    decodePairs 0 s.toList = .ok bs := by
  have hdecode := decode_of_bytes h
  unfold decode at hdecode
  split at hdecode
  · cases hdecode
  · exact hdecode

theorem bytes_of_decodePairs {s : String} {bs : Bytes} (heven : s.utf8ByteSize % 2 = 0)
    (h : decodePairs 0 s.toList = .ok bs) : bytes s = .ok bs := by
  have hodd : ¬ s.utf8ByteSize % 2 = 1 := by omega
  rw [bytes, decode, if_neg hodd, h]

/-- Two texts in a row are read as the bytes of both. -/
theorem bytes_append {s t : String} {as bs : Bytes} (hs : bytes s = .ok as) (ht : bytes t = .ok bs) :
    bytes (s ++ t) = .ok (as ++ bs) := by
  have hsize : (s ++ t).utf8ByteSize % 2 = 0 := by
    have hleft := length_of_decode (decode_of_bytes hs)
    have hright := length_of_decode (decode_of_bytes ht)
    rw [String.utf8ByteSize_append]
    omega
  refine bytes_of_decodePairs hsize ?_
  rw [String.toList_append]
  exact decodePairs_append (decodePairs_of_bytes hs) (decodePairs_of_bytes ht)

/-! ### Texts of digits -/

private theorem exists_decodePairs {position : Nat} {cs : List Char} (heven : cs.length % 2 = 0)
    (h : ∀ c ∈ cs, (digit? c).isSome) : ∃ bs, decodePairs position cs = .ok bs := by
  fun_induction decodePairs position cs with
  | case1 => exact ⟨[], rfl⟩
  | case2 => simp at heven
  | case3 position a b rest ha => simp [ha] at h
  | case4 position a b rest high ha hb => simp [hb] at h
  | case5 position a b rest high ha low hb e hrest ih =>
    have hlen : rest.length % 2 = 0 := by
      simp only [List.length_cons] at heven
      omega
    obtain ⟨bs, hbs⟩ := ih hlen fun c hc => h c (List.mem_cons_of_mem _ (List.mem_cons_of_mem _ hc))
    rw [hrest] at hbs
    cases hbs
  | case6 => exact ⟨_, rfl⟩

private theorem digits_of_decodePairs {position : Nat} {cs : List Char} {bs : Bytes}
    (h : decodePairs position cs = .ok bs) : ∀ c ∈ cs, (digit? c).isSome := by
  fun_induction decodePairs position cs generalizing bs with
  | case1 => simp
  | case2 => cases h
  | case3 => cases h
  | case4 => cases h
  | case5 => cases h
  | case6 position a b rest high ha low hb bytes hrest ih =>
    intro c hc
    rcases List.mem_cons.1 hc with rfl | hc
    · simp [ha]
    · rcases List.mem_cons.1 hc with rfl | hc
      · simp [hb]
      · exact ih hrest c hc

/-- A text of so many digits. -/
def IsDigits (count : Nat) (s : String) : Prop := isDigits s = true ∧ s.toList.length = count

instance (count : Nat) (s : String) : Decidable (IsDigits count s) :=
  inferInstanceAs (Decidable (_ ∧ _))

theorem utf8ByteSize_of_digits {s : String} (h : isDigits s = true) : s.utf8ByteSize = s.toList.length := by
  refine utf8ByteSize_of_ascii fun c hc => ?_
  have hdigit := List.all_eq_true.1 h c hc
  obtain ⟨n, hn⟩ := Option.isSome_iff_exists.1 hdigit
  exact utf8Size_of_digit? hn

/-- A text is read as so many bytes exactly if it has twice as many characters, all of them digits. -/
theorem exists_bytes_iff_isDigits {s : String} {count : Nat} :
    (∃ bs, bytes s = .ok bs ∧ bs.length = count) ↔ IsDigits (2 * count) s := by
  constructor
  · rintro ⟨bs, hbs, rfl⟩
    have hpairs := decodePairs_of_bytes hbs
    have hdigits : isDigits s = true := List.all_eq_true.2 (digits_of_decodePairs hpairs)
    refine ⟨hdigits, ?_⟩
    rw [← utf8ByteSize_of_digits hdigits, length_of_decode (decode_of_bytes hbs)]
  · rintro ⟨hdigits, hlen⟩
    have hsize := utf8ByteSize_of_digits hdigits
    have heven : s.toList.length % 2 = 0 := by omega
    obtain ⟨bs, hbs⟩ := @exists_decodePairs 0 _ heven (List.all_eq_true.1 hdigits)
    have hbytes := bytes_of_decodePairs (by omega) hbs
    refine ⟨bs, hbytes, ?_⟩
    have := length_of_decode (decode_of_bytes hbytes)
    omega

/-! ### Writing what was read -/

private theorem encodeChars_of_decodePairs {position : Nat} {cs : List Char} {bs : Bytes}
    (h : decodePairs position cs = .ok bs) : encodeChars bs = cs.map Char.toLower := by
  fun_induction decodePairs position cs generalizing bs with
  | case1 =>
    cases h
    rfl
  | case2 => cases h
  | case3 => cases h
  | case4 => cases h
  | case5 => cases h
  | case6 position a b rest high ha low hb bytes hrest ih =>
    cases h
    obtain ⟨hhigh, hlower⟩ := hexDigit_of_digit? ha
    obtain ⟨hlow, hlower'⟩ := hexDigit_of_digit? hb
    have hbyte : (UInt8.ofNat (high * 16 + low)).toNat = high * 16 + low := by
      rw [UInt8.toNat_ofNat']
      omega
    have hfront : (high * 16 + low) / 16 = high := by omega
    have hback : (high * 16 + low) % 16 = low := by omega
    show Numeral.hexDigit (_ / 16) :: Numeral.hexDigit (_ % 16) :: encodeChars bytes = _
    rw [hbyte, hfront, hback, hlower, hlower', ih hrest]
    rfl

theorem toList_toLower (s : String) : s.toLower.toList = s.toList.map Char.toLower := String.toList_map

/-- Reading and writing turns the letters of a text into lowercase. -/
theorem encode_of_bytes {s : String} {bs : Bytes} (h : bytes s = .ok bs) : encode bs = s.toLower := by
  refine String.toList_inj.1 ?_
  rw [encode, String.toList_ofList, encodeChars_of_decodePairs (decodePairs_of_bytes h), toList_toLower]

/-- The letter case of a text does not matter. -/
theorem bytes_of_toLower {s : String} {bs : Bytes} (h : bytes s.toLower = .ok bs) : bytes s = .ok bs := by
  have hdigits : isDigits s.toLower = isDigits s := by
    rw [isDigits, isDigits, toList_toLower, List.all_map]
    exact congrArg s.toList.all (funext fun c => congrArg Option.isSome (digit?_toLower c))
  have hlength : s.toLower.toList.length = s.toList.length := by
    rw [toList_toLower, List.length_map]
  obtain ⟨hlower, hcount⟩ := exists_bytes_iff_isDigits.1 ⟨bs, h, rfl⟩
  obtain ⟨bs', hbs', -⟩ := exists_bytes_iff_isDigits.2 ⟨hdigits.symm.trans hlower, hlength.symm.trans hcount⟩
  rw [← encode_of_bytes hbs', bytes_encode] at h
  rwa [Except.ok.inj h] at hbs'

/-! ### Reversing -/

theorem reversePairs_eq_ok {s t : String} :
    reversePairs s = .ok t ↔ ∃ bs, bytes s = .ok bs ∧ t = encode bs.reverse := by
  unfold reversePairs
  by_cases hodd : s.utf8ByteSize % 2 = 1
  · rw [if_pos hodd]
    constructor
    · intro h
      cases h
    · rintro ⟨bs, hbs, -⟩
      have := length_of_decode (decode_of_bytes hbs)
      omega
  · rw [if_neg hodd, Outcome.map_eq_ok]
    exact ⟨fun ⟨bs, hbs, ht⟩ => ⟨bs, hbs, ht.symm⟩, fun ⟨bs, hbs, ht⟩ => ⟨bs, hbs, ht.symm⟩⟩

/-- Reversing twice turns the letters of a text into lowercase. -/
theorem reversePairs_reversePairs {s t : String} (h : reversePairs s = .ok t) : reversePairs t = .ok s.toLower := by
  obtain ⟨bs, hbs, rfl⟩ := reversePairs_eq_ok.1 h
  refine reversePairs_eq_ok.2 ⟨bs.reverse, bytes_encode _, ?_⟩
  rw [List.reverse_reverse, encode_of_bytes hbs]

end Hex

end MergedMining
