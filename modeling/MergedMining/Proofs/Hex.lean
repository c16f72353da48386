import MergedMining.Hex.Reversal
import MergedMining.Proofs.Outcome
import MergedMining.Stratum.Field

/-!
# Writing and reading hexadecimal text

Reading undoes writing (`decode_encode`), and a text that is read has two digits for each byte
(`length_of_decode`).  A number in `2 * width` digits is the text of its `width` bytes (`toHex_eq_encode`), so a
word on the miner's line is read as its bytes (`decode_toText`).
-/

namespace MergedMining

namespace Hex

/-! ### Bytes of a text -/

theorem utf8ByteSize_eq_sum (s : String) : s.utf8ByteSize = (s.toList.map Char.utf8Size).sum := by
  have hchars : ∀ cs : List Char, (String.ofList cs).utf8ByteSize = (cs.map Char.utf8Size).sum := by
    intro cs
    induction cs with
    | nil => rfl
    | cons c cs ih =>
      have happ : String.ofList (c :: cs) = String.ofList [c] ++ String.ofList cs := by
        rw [← String.ofList_append]
        rfl
      have hone : (String.ofList [c]).utf8ByteSize = c.utf8Size := by
        rw [← String.singleton_eq_ofList, String.utf8ByteSize_singleton]
      rw [happ, String.utf8ByteSize_append, ih, hone, List.map_cons, List.sum_cons]
  have := hchars s.toList
  rwa [String.ofList_toList] at this

theorem utf8ByteSize_of_ascii {s : String} (h : ∀ c ∈ s.toList, c.utf8Size = 1) :
    s.utf8ByteSize = s.toList.length := by
  rw [utf8ByteSize_eq_sum, List.map_eq_replicate_iff.2 h, List.sum_replicate_nat, Nat.mul_one]

/-! ### Digits -/

private theorem hexDigit_values : ∀ n ∈ List.range 16,
    digit? (Numeral.hexDigit n) = some n ∧ (Numeral.hexDigit n).utf8Size = 1 := by
  decide

theorem digit?_hexDigit {n : Nat} (h : n < 16) : digit? (Numeral.hexDigit n) = some n :=
  (hexDigit_values n (List.mem_range.2 h)).1

theorem utf8Size_hexDigit {n : Nat} (h : n < 16) : (Numeral.hexDigit n).utf8Size = 1 :=
  (hexDigit_values n (List.mem_range.2 h)).2

private theorem le_of_digit? {c : Char} {n : Nat} (h : digit? c = some n) : c ≤ 'z' := by
  -- the letters and digits of all ranges come before the small z
  refine Decidable.byContradiction fun hz => ?_
  have h0 : ¬ ('0' ≤ c ∧ c ≤ '9') := fun hc => hz (Char.le_trans hc.2 (by decide))
  have h1 : ¬ ('a' ≤ c ∧ c ≤ 'z') := fun hc => hz hc.2
  have h2 : ¬ ('A' ≤ c ∧ c ≤ 'Z') := fun hc => hz (Char.le_trans hc.2 (by decide))
  simp [digit?, Numeral.digit?, h0, h1, h2] at h

theorem utf8Size_of_digit? {c : Char} {n : Nat} (h : digit? c = some n) : c.utf8Size = 1 := by
  have hle : c.val ≤ 'z'.val := le_of_digit? h
  exact Char.utf8Size_eq_one_iff.2 (UInt32.le_trans hle (by decide))

private theorem toLower_values : ∀ n ∈ List.range 123, ∀ d ∈ digit? (Char.ofNat n),
    d < 16 ∧ Numeral.hexDigit d = (Char.ofNat n).toLower := by
  decide +kernel

/-- Digits of both letter cases are written in lowercase. -/
theorem hexDigit_of_digit? {c : Char} {n : Nat} (h : digit? c = some n) :
    n < 16 ∧ Numeral.hexDigit n = c.toLower := by
  have hle : c.toNat ≤ 'z'.toNat := le_of_digit? h
  have hvalues := toLower_values c.toNat (List.mem_range.2 (Nat.lt_succ_of_le hle)) n
  rw [Char.ofNat_toNat] at hvalues
  exact hvalues h

private theorem digit?_toLower_values : ∀ n ∈ List.range 91,
    digit? (Char.ofNat n).toLower = digit? (Char.ofNat n) := by
  decide +kernel

/-- The letter case of a digit does not matter. -/
theorem digit?_toLower (c : Char) : digit? c.toLower = digit? c := by
  by_cases hupper : c.toNat ≤ 'Z'.toNat
  · have hvalues := digit?_toLower_values c.toNat (List.mem_range.2 (Nat.lt_succ_of_le hupper))
    rwa [Char.ofNat_toNat] at hvalues
  · have hsame : c.toLower = c := dif_neg fun h => hupper h.2
    rw [hsame]

/-! ### Writing -/

theorem encodeChars_append (bs cs : Bytes) : encodeChars (bs ++ cs) = encodeChars bs ++ encodeChars cs := by
  simp [encodeChars]

theorem length_encodeChars (bs : Bytes) : (encodeChars bs).length = 2 * bs.length := by
  induction bs with
  | nil => rfl
  | cons b bs ih =>
    show (encodeChars bs).length + 2 = _
    rw [ih, List.length_cons]
    omega

private theorem utf8Size_encodeChars (bs : Bytes) : ∀ c ∈ encodeChars bs, c.utf8Size = 1 := by
  intro c hc
  simp only [encodeChars, List.mem_flatMap, List.mem_cons, List.not_mem_nil, or_false] at hc
  obtain ⟨b, -, rfl | rfl⟩ := hc
  · have := b.toNat_lt
    exact utf8Size_hexDigit (by omega)
  · exact utf8Size_hexDigit (by omega)

@[simp] theorem utf8ByteSize_encode (bs : Bytes) : (encode bs).utf8ByteSize = 2 * bs.length := by
  rw [utf8ByteSize_of_ascii, encode, String.toList_ofList, length_encodeChars]
  simpa [encode] using utf8Size_encodeChars bs

/-! ### Reading -/

private theorem decodePairs_encodeChars (position : Nat) (bs : Bytes) :
    decodePairs position (encodeChars bs) = .ok bs := by
  induction bs generalizing position with
  | nil => rfl
  | cons b bs ih =>
    have hb := b.toNat_lt
    show decodePairs position (Numeral.hexDigit (b.toNat / 16) :: Numeral.hexDigit (b.toNat % 16) ::
      encodeChars bs) = _
    rw [decodePairs, digit?_hexDigit (by omega), digit?_hexDigit (by omega)]
    dsimp only
    rw [ih, show b.toNat / 16 * 16 + b.toNat % 16 = b.toNat by omega, UInt8.ofNat_toNat]

@[simp] theorem decode_encode (bs : Bytes) : decode (encode bs) = .ok bs := by
  rw [decode, utf8ByteSize_encode, if_neg (by omega), encode, String.toList_ofList, decodePairs_encodeChars]

@[simp] theorem bytes_encode (bs : Bytes) : bytes (encode bs) = .ok bs := by
  rw [bytes, decode_encode]

private theorem length_of_decodePairs {position : Nat} {cs : List Char} {bs : Bytes}
    (h : decodePairs position cs = .ok bs) : cs.length = 2 * bs.length ∧ ∀ c ∈ cs, c.utf8Size = 1 := by
  fun_induction decodePairs position cs generalizing bs with
  | case1 => cases h; simp
  | case2 => cases h
  | case3 => cases h
  | case4 => cases h
  | case5 => cases h
  | case6 position a b rest high ha low hb bytes hrest ih =>
    cases h
    obtain ⟨hlen, hsize⟩ := ih hrest
    refine ⟨by simp only [List.length_cons, hlen]; omega, ?_⟩
    intro c hc
    rcases List.mem_cons.1 hc with rfl | hc
    · exact utf8Size_of_digit? ha
    · rcases List.mem_cons.1 hc with rfl | hc
      · exact utf8Size_of_digit? hb
      · exact hsize c hc

/-- A text that is read has two digits for each byte. -/
theorem length_of_decode {s : String} {bs : Bytes} (h : decode s = .ok bs) : s.utf8ByteSize = 2 * bs.length := by
  unfold decode at h
  split at h
  · cases h
  · obtain ⟨hlen, hsize⟩ := length_of_decodePairs h
    rw [utf8ByteSize_of_ascii hsize, hlen]

theorem decode_of_bytes {s : String} {bs : Bytes} (h : bytes s = .ok bs) : decode s = .ok bs := by
  unfold bytes at h
  split at h
  · cases h
    assumption
  · cases h

theorem turned_eq_ok {width : Nat} {fault : Bytes → EncodingFault} {s : String} {bs : Bytes} :
    turned width fault s = .ok bs ↔ bytes s = .ok bs.reverse ∧ bs.length = width := by
  unfold turned
  rcases bytes s with e | cs
  · simp
  · by_cases hlen : cs.length = width
    · simp only [hlen, if_true, Except.ok.injEq]
      constructor
      · rintro rfl
        simp [hlen]
      · rintro ⟨rfl, -⟩
        simp
    · simp only [hlen, if_false, reduceCtorEq, Except.ok.injEq, false_iff, not_and]
      rintro rfl
      simpa using hlen

/-! ### Words of four bytes -/

/-- The bytes inside each word of four turned round, the words staying in their order. -/
def swapWords : Bytes → Bytes
  | a :: b :: c :: d :: rest => d :: c :: b :: a :: swapWords rest
  | rest => rest

/-- Words can be taken one after another. -/
private theorem words_induction {P : (bs : Bytes) → bs.length % 4 = 0 → Prop} (nil : P [] rfl)
    (word : ∀ a b c d rest h h', P rest h → P (a :: b :: c :: d :: rest) h') (bs : Bytes) (h : bs.length % 4 = 0) :
    P bs h := by
  rcases bs with _ | ⟨a, _ | ⟨b, _ | ⟨c, _ | ⟨d, rest⟩⟩⟩⟩
  · exact nil
  · simp at h
  · simp at h
  · simp at h
  · have hrest : rest.length % 4 = 0 := by
      simp only [List.length_cons] at h
      omega
    exact word a b c d rest hrest h (words_induction nil word rest hrest)

private theorem swapWords_append {bs : Bytes} (h : bs.length % 4 = 0) (cs : Bytes) :
    swapWords (bs ++ cs) = swapWords bs ++ swapWords cs := by
  induction bs, h using words_induction with
  | nil => rfl
  | word a b c d rest _ _ ih => simp only [List.cons_append, swapWords, ih]

theorem length_reverseWordBytes {bs : Bytes} (h : bs.length % 4 = 0) : (reverseWordBytes bs).length = bs.length := by
  induction bs, h using words_induction with
  | nil => rfl
  | word a b c d rest _ _ ih => simp [reverseWordBytes, ih]

private theorem reverseWordBytes_append {bs : Bytes} (h : bs.length % 4 = 0) (cs : Bytes) :
    reverseWordBytes (bs ++ cs) = reverseWordBytes cs ++ reverseWordBytes bs := by
  induction bs, h using words_induction with
  | nil => simp [reverseWordBytes]
  | word a b c d rest _ _ ih => simp only [List.cons_append, reverseWordBytes, ih, List.append_assoc]

/-- Words in reverse order twice are the words as they were. -/
theorem reverseWordBytes_reverseWordBytes {bs : Bytes} (h : bs.length % 4 = 0) :
    reverseWordBytes (reverseWordBytes bs) = bs := by
  induction bs, h using words_induction with
  | nil => rfl
  | word a b c d rest hrest _ ih =>
    have hwords : (reverseWordBytes rest).length % 4 = 0 := by rwa [length_reverseWordBytes hrest]
    rw [reverseWordBytes, reverseWordBytes_append hwords, ih]
    rfl

/-- Words in reverse order, each turned round, are the bytes in reverse order. -/
theorem swapWords_reverseWordBytes {bs : Bytes} (h : bs.length % 4 = 0) :
    swapWords (reverseWordBytes bs) = bs.reverse := by
  induction bs, h using words_induction with
  | nil => rfl
  | word a b c d rest hrest _ ih =>
    have hwords : (reverseWordBytes rest).length % 4 = 0 := by rwa [length_reverseWordBytes hrest]
    rw [reverseWordBytes, swapWords_append hwords, ih]
    simp [swapWords]

/-- Words are turned round in texts of whole words. -/
theorem reverseWords_eq_ok {s t : String} :
    reverseWords s = .ok t ↔ ∃ bs, bytes s = .ok bs ∧ bs.length % 4 = 0 ∧ t = encode (reverseWordBytes bs) := by
  unfold reverseWords
  by_cases h : s.utf8ByteSize % 8 = 0
  · rw [if_neg (not_not.2 h), Outcome.map_eq_ok]
    constructor
    · rintro ⟨bs, hbs, rfl⟩
      have hsize := length_of_decode (decode_of_bytes hbs)
      exact ⟨bs, hbs, by omega, rfl⟩
    · rintro ⟨bs, hbs, -, rfl⟩
      exact ⟨bs, hbs, rfl⟩
  · rw [if_pos h]
    constructor
    · intro hfault
      cases hfault
    · rintro ⟨bs, hbs, hwords, -⟩
      have hsize := length_of_decode (decode_of_bytes hbs)
      omega

/-! ### Numbers in digits -/

private theorem leftpad_concat (width : Nat) (cs : List Char) (c : Char) :
    (cs ++ [c]).leftpad (width + 1) '0' = cs.leftpad width '0' ++ [c] := by
  simp [List.leftpad]

private theorem leftpad_hexDigits (width n : Nat) :
    (Numeral.hexDigits n).leftpad (width + 1) '0' =
      (Numeral.hexDigits (n / 16)).leftpad width '0' ++ [Numeral.hexDigit (n % 16)] := by
  by_cases hn : n = 0
  · subst hn
    simp [Numeral.hexDigits, List.leftpad, List.replicate_succ', Numeral.hexDigit]
  · rw [Numeral.hexDigits, if_neg hn, leftpad_concat]

private theorem ofNatBE_succ (width n : Nat) :
    Bytes.ofNatBE (width + 1) n = Bytes.ofNatBE width (n / 256) ++ [UInt8.ofNat n] := by
  simp [Bytes.ofNatBE, Bytes.ofNatLE]

private theorem leftpad_eq_encodeChars {width n : Nat} (h : n < 256 ^ width) :
    (Numeral.hexDigits n).leftpad (2 * width) '0' = encodeChars (Bytes.ofNatBE width n) := by
  induction width generalizing n with
  | zero =>
    have hn : n = 0 := by simpa using h
    simp [hn, Numeral.hexDigits, Bytes.ofNatBE, Bytes.ofNatLE, encodeChars, List.leftpad]
  | succ width ih =>
    have hn : n / 256 < 256 ^ width := by
      rw [Nat.pow_succ] at h
      omega
    rw [show 2 * (width + 1) = 2 * width + 1 + 1 by omega, leftpad_hexDigits, leftpad_hexDigits,
      Nat.div_div_eq_div_mul, ih hn, ofNatBE_succ, encodeChars_append]
    -- the last byte gives the last two digits
    have hbyte : (UInt8.ofNat n).toNat = n % 256 := by simp
    simp only [encodeChars, List.flatMap_cons, List.flatMap_nil, List.append_nil, List.append_assoc, hbyte,
      List.cons_append, List.nil_append]
    rw [show n % 256 / 16 = n / 16 % 16 by omega, show n % 256 % 16 = n % 16 by omega]

/-- The digits of a number, padded to two for each byte, are the text of its bytes. -/
theorem toHex_eq_encode {width n : Nat} (h : n < 256 ^ width) :
    Numeral.toHex (2 * width) n = encode (Bytes.ofNatBE width n) := by
  rw [Numeral.toHex, leftpad_eq_encodeChars h, encode]

theorem decode_toText {role : Stratum.WordRole} (w : Stratum.Word role) : decode w.toText = .ok w.toBytes := by
  have h : w.number.toNat < 256 ^ 4 := w.number.toNat_lt
  rw [Stratum.Word.toText, toHex_eq_encode h, decode_encode, Stratum.Word.toBytes]

end Hex

end MergedMining
