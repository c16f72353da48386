import Mathlib.Tactic.Ring
import MergedMining.Proofs.Coinbase

/-!
# The height that nodes read

Nodes require that the script of a coinbase starts with the height of its block (BIP34): a push of a script
number, whose bytes come least significant first, with the sign in the top bit of the last one.  The first half
of a coinbase pushes the plain bytes of the height.  So the height is read back exactly if the top bit of its
last byte is free, which is to say that the number of its binary digits is no multiple of eight
(`height?_initialOf_iff`); a height with a full last byte is read as a number that is not positive, or as
none.
-/

namespace MergedMining

/-! ### Script numbers -/

namespace ScriptNumber

/-- The number that bytes stand for, least significant first; the top bit of the last one is the sign. -/
def value (bs : Bytes) : Int :=
  match bs.getLast? with
  | none => 0
  | some last =>
    if last.toNat < 128 then Bytes.toNatLE bs
    else -(Bytes.toNatLE bs - 128 * 256 ^ (bs.length - 1))

/-- Whether no byte could be spared: a last byte that holds nothing but a sign has to keep it off the byte before. -/
def isMinimal (bs : Bytes) : Bool :=
  match bs.reverse with
  | [] => true
  | [last] => last.toNat % 128 ≠ 0
  | last :: before :: _ => last.toNat % 128 ≠ 0 || 128 ≤ before.toNat

/-- The number that bytes stand for, if no byte could be spared. -/
def read? (bs : Bytes) : Option Int :=
  if isMinimal bs then some (value bs) else none

/-- The bytes that a script pushes first, and the script behind them: a byte says how many they are, from 1 to 75. -/
def push? : Bytes → Option (Bytes × Bytes)
  | [] => none
  | size :: script =>
    if 0 < size.toNat ∧ size.toNat ≤ 75 then Transaction.chunk? size.toNat script else none

theorem push?_cons {bs : Bytes} (hpos : 0 < bs.length) (hle : bs.length ≤ 75) (script : Bytes) :
    push? (UInt8.ofNat bs.length :: bs ++ script) = some (bs, script) := by
  have hsize : (UInt8.ofNat bs.length).toNat = bs.length := by
    rw [UInt8.toNat_ofNat']
    omega
  rw [List.cons_append, push?, hsize, if_pos ⟨hpos, hle⟩]
  exact Transaction.chunk?_append rfl script

variable {front : Bytes} {last : UInt8}

theorem isMinimal_concat (h : last.toNat % 128 ≠ 0) : isMinimal (front ++ [last]) = true := by
  rw [isMinimal, List.reverse_append, List.reverse_singleton, List.singleton_append]
  rcases front.reverse with _ | ⟨before, rest⟩
  · simpa using h
  · simp [h]

theorem value_concat_of_lt (h : last.toNat < 128) :
    value (front ++ [last]) = Bytes.toNatLE (front ++ [last]) := by
  rw [value, List.getLast?_concat]
  exact if_pos h

theorem value_concat_of_le (h : 128 ≤ last.toNat) :
    value (front ++ [last]) = 128 * 256 ^ front.length - Bytes.toNatLE (front ++ [last]) := by
  have hlen : (front ++ [last]).length - 1 = front.length := by simp
  rw [value, List.getLast?_concat, hlen]
  simp only [Nat.not_lt.2 h, if_false]
  omega

end ScriptNumber

/-! ### The last byte of a height -/

/-- How many binary digits a number has, by its last byte. -/
theorem Bytes.log2_toNatLE_concat (front : Bytes) {last : UInt8} (hne : last.toNat ≠ 0) :
    Nat.log2 (toNatLE (front ++ [last])) = 8 * front.length + Nat.log2 last.toNat := by
  have hfront := toNatLE_lt front
  have hpow : (256 : Nat) ^ front.length = 2 ^ (8 * front.length) := by
    rw [Nat.pow_mul]
  have hlow := Nat.log2_self_le hne
  have hhigh := Nat.lt_log2_self (n := last.toNat)
  rw [toNatLE_append, toNatLE, toNatLE, Nat.mul_zero, Nat.add_zero]
  rw [hpow] at hfront ⊢
  have hpos : 0 < 2 ^ (8 * front.length) := Nat.two_pow_pos _
  have hsum : toNatLE front + 2 ^ (8 * front.length) * last.toNat ≠ 0 := by
    have := Nat.mul_pos hpos (Nat.pos_of_ne_zero hne)
    omega
  rw [Nat.log2_eq_iff hsum, Nat.pow_add, Nat.add_assoc, Nat.pow_add]
  constructor
  · calc 2 ^ (8 * front.length) * 2 ^ Nat.log2 last.toNat
        ≤ 2 ^ (8 * front.length) * last.toNat := Nat.mul_le_mul_left _ hlow
      _ ≤ toNatLE front + 2 ^ (8 * front.length) * last.toNat := Nat.le_add_left _ _
  · calc toNatLE front + 2 ^ (8 * front.length) * last.toNat
        < 2 ^ (8 * front.length) + 2 ^ (8 * front.length) * last.toNat := Nat.add_lt_add_right hfront _
      _ = 2 ^ (8 * front.length) * (last.toNat + 1) := by ring
      _ ≤ 2 ^ (8 * front.length) * 2 ^ (Nat.log2 last.toNat + 1) := Nat.mul_le_mul_left _ hhigh

namespace Coinbase

variable {height : UInt64}

/-- The last byte of a height is not zero, and is full exactly if the height has a multiple of eight binary digits. -/
theorem exists_heightBytes_eq_concat (h : height.toNat ≠ 0) : ∃ front last, heightBytes height = front ++ [last] ∧
    last.toNat ≠ 0 ∧ Nat.log2 height.toNat = 8 * front.length + Nat.log2 last.toNat := by
  have hvalue := toNatLE_heightBytes height
  obtain ⟨front, last, hconcat, hlast⟩ : ∃ front last, heightBytes height = front ++ [last] ∧ last.toNat ≠ 0 := by
    have htrim : heightBytes height =
        UInt8.ofNat height.toNat :: Bytes.dropZeros (Bytes.ofNatLE 7 (height.toNat / 256)) := rfl
    rcases Bytes.dropZeros_eq_nil_or_concat (Bytes.ofNatLE 7 (height.toNat / 256))
      with hnil | ⟨front, last, hmore, hlast⟩
    · -- then the first byte is all there is
      rw [hnil] at htrim
      refine ⟨[], UInt8.ofNat height.toNat, htrim, fun hzero => h ?_⟩
      rw [← hvalue, htrim, Bytes.toNatLE, hzero]
      rfl
    · rw [hmore] at htrim
      exact ⟨_ :: front, last, htrim, hlast⟩
  have hlog := Bytes.log2_toNatLE_concat front hlast
  rw [← hconcat, hvalue] at hlog
  exact ⟨front, last, hconcat, hlast, hlog⟩

/-- A height whose last byte has its top bit free is read back from its bytes. -/
theorem read?_heightBytes_of_free (h : height.toNat ≠ 0) (hfree : Nat.log2 height.toNat % 8 ≠ 7) :
    ScriptNumber.read? (heightBytes height) = some (height.toNat : Int) := by
  obtain ⟨front, last, hconcat, hlast, hlog⟩ := exists_heightBytes_eq_concat h
  have hbyte : Nat.log2 last.toNat < 8 := (Nat.log2_lt hlast).2 last.toNat_lt
  have hlt : last.toNat < 128 := (Nat.log2_lt (k := 7) hlast).1 (by omega)
  have hminimal : ScriptNumber.isMinimal (heightBytes height) = true := by
    rw [hconcat]
    exact ScriptNumber.isMinimal_concat (by omega)
  rw [ScriptNumber.read?, if_pos hminimal, hconcat, ScriptNumber.value_concat_of_lt hlt, ← hconcat,
    toNatLE_heightBytes]

/-- What is left of a height whose last byte is full, when its top bit is taken for a sign. -/
theorem read?_heightBytes_of_full (h : height.toNat ≠ 0) (hfull : Nat.log2 height.toNat % 8 = 7) {v : Int}
    (hread : ScriptNumber.read? (heightBytes height) = some v) :
    v = 2 ^ Nat.log2 height.toNat - height.toNat := by
  obtain ⟨front, last, hconcat, hlast, hlog⟩ := exists_heightBytes_eq_concat h
  have hbyte : Nat.log2 last.toNat < 8 := (Nat.log2_lt hlast).2 last.toNat_lt
  have htop : Nat.log2 last.toNat = 7 := by omega
  have hle : 128 ≤ last.toNat := (Nat.le_log2 (k := 7) hlast).1 (by omega)
  have hsign : (2 : Int) ^ Nat.log2 height.toNat = 128 * 256 ^ front.length := by
    rw [hlog, htop, pow_add, pow_mul]
    ring
  have hvalue : v = ScriptNumber.value (heightBytes height) := by
    unfold ScriptNumber.read? at hread
    split at hread
    · exact (Option.some.inj hread).symm
    · cases hread
  rw [hvalue, hconcat, ScriptNumber.value_concat_of_le hle, ← hconcat, toNatLE_heightBytes, hsign]

/-! ### The script of a coinbase -/

/-- The script of the first input of a transaction, as far as it is there. -/
def script? (bytes : Bytes) : Option Bytes := do
  let (_version, rest) ← CompactSize.readLE 4 bytes
  let (_count, rest) ← CompactSize.decode rest
  let (_previous, rest) ← Transaction.chunk? 32 rest
  let (_index, rest) ← CompactSize.readLE 4 rest
  let (_length, script) ← CompactSize.decode rest
  return script

/-- The height that nodes read in a coinbase: the script number that its script pushes first. -/
def height? (bytes : Bytes) : Option Int := do
  let script ← script? bytes
  let (pushed, _rest) ← ScriptNumber.push? script
  ScriptNumber.read? pushed

theorem script?_initialOf (height : UInt64) (length : Nat) (rest : Bytes) :
    script? (initialOf height length ++ rest) =
      some (UInt8.ofNat (heightBytes height).length :: heightBytes height ++ rest) := by
  have hversion : (1 : Nat) < 256 ^ 4 := by decide
  have hindex : (0xffffffff : Nat) < 256 ^ 4 := by decide
  have hprevious : (List.replicate 32 (0 : UInt8)).length = 32 := List.length_replicate
  obtain ⟨n, hn⟩ := CompactSize.exists_decode_encode (length + (heightBytes height).length + 1)
    (UInt8.ofNat (heightBytes height).length :: heightBytes height ++ rest)
  rw [initialOf_eq]
  simp only [List.append_assoc, script?, CompactSize.readLE_ofNatLE hversion,
    CompactSize.decode_encode (n := 1) (by decide), Transaction.chunk?_append hprevious,
    CompactSize.readLE_ofNatLE hindex, hn, Option.bind_eq_bind, Option.bind_some]
  rfl

/-- What nodes read as the height is what the bytes of the height stand for. -/
theorem height?_initialOf {height : UInt64} (h : height.toNat ≠ 0) (length : Nat) (rest : Bytes) :
    height? (initialOf height length ++ rest) = ScriptNumber.read? (heightBytes height) := by
  have hle := length_heightBytes_le height
  have hpos : 0 < (heightBytes height).length := by
    obtain ⟨front, last, hconcat, -⟩ := exists_heightBytes_eq_concat h
    rw [hconcat, List.length_append]
    exact Nat.succ_pos _
  simp only [height?, script?_initialOf, ScriptNumber.push?_cons hpos (by omega), Option.bind_eq_bind,
    Option.bind_some]

/-- Nodes read back a height exactly if the number of its binary digits is no multiple of eight.  Of any other
height they read at most what is left of it below its top bit, as a negative number. -/
theorem height?_initialOf_iff {height : UInt64} (hheight : 16 < height.toNat) (length : Nat) (rest : Bytes) :
    (height? (initialOf height length ++ rest) = some (height.toNat : Int) ↔ Nat.log2 height.toNat % 8 ≠ 7) ∧
      ∀ v, height? (initialOf height length ++ rest) = some v →
        v = height.toNat ∨ v = 2 ^ Nat.log2 height.toNat - height.toNat := by
  have hne : height.toNat ≠ 0 := by omega
  rw [height?_initialOf hne]
  by_cases hfull : Nat.log2 height.toNat % 8 = 7
  · have hread := fun v => read?_heightBytes_of_full (v := v) hne hfull
    -- what is left below the top bit is less than the height
    have hpow : (2 : Int) ^ Nat.log2 height.toNat ≤ height.toNat := by
      exact_mod_cast Nat.log2_self_le hne
    refine ⟨iff_of_false (fun hback => ?_) (not_not.2 hfull), fun v hv => .inr (hread v hv)⟩
    have := hread _ hback
    omega
  · have hread := read?_heightBytes_of_free hne hfull
    refine ⟨iff_of_true hread hfull, fun v hv => .inl ?_⟩
    rw [hread] at hv
    exact (Option.some.inj hv).symm

theorem height?_initialOf_iff_sample : 16 < (4800000 : UInt64).toNat ∧
    height? (initialOf 4800000 21 ++ [0xde, 0xad]) = some 4800000 := by
  have hheight : 16 < (4800000 : UInt64).toNat := by decide
  exact ⟨hheight, (height?_initialOf_iff hheight 21 [0xde, 0xad]).1.2 (by decide)⟩

/-- The bytes of nine million are `40 54 89`, and what nodes read is minus 611392. -/
theorem height?_initialOf_ne : 16 < (9000000 : UInt64).toNat ∧
    height? (initialOf 9000000 21) = some (-611392) ∧ height? (initialOf 9000000 21) ≠ some 9000000 := by
  have hread : height? (initialOf 9000000 21) = some (-611392) := by decide +kernel
  refine ⟨by decide, hread, ?_⟩
  rw [hread]
  decide

end Coinbase

end MergedMining
