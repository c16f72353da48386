import Mathlib.Algebra.Ring.Nat
import MergedMining.Bytes

/-!
# Numerals that are read back

`toNatLE` reads back what `ofNatLE` writes modulo `256 ^ width`, and dropping high zero bytes does not change
the number read.
-/

namespace MergedMining

namespace Bytes

/-! ### Numerals -/

theorem toNatLE_ofNatLE (width n : Nat) : toNatLE (ofNatLE width n) = n % 256 ^ width := by
  induction width generalizing n with
  | zero => simp [ofNatLE, toNatLE, Nat.mod_one]
  | succ width ih =>
    rw [ofNatLE, toNatLE, ih, Nat.pow_succ', Nat.mod_mul]
    simp

theorem ofNatLE_toNatLE (bs : Bytes) : ofNatLE bs.length (toNatLE bs) = bs := by
  induction bs with
  | nil => rfl
  | cons b bs ih =>
    have hb : b.toNat < 256 := b.toNat_lt
    have hlow : UInt8.ofNat (b.toNat + 256 * toNatLE bs) = b := by
      rw [← UInt8.toNat_inj, UInt8.toNat_ofNat']
      omega
    rw [List.length_cons, toNatLE, ofNatLE, hlow, show (b.toNat + 256 * toNatLE bs) / 256 = toNatLE bs by omega, ih]

theorem toNatLE_lt (bs : Bytes) : toNatLE bs < 256 ^ bs.length := by
  induction bs with
  | nil => simp [toNatLE]
  | cons b bs ih =>
    have hb : b.toNat < 256 := b.toNat_lt
    simp only [toNatLE, List.length_cons, Nat.pow_succ']
    omega

theorem toNatLE_append (bs cs : Bytes) :
    toNatLE (bs ++ cs) = toNatLE bs + 256 ^ bs.length * toNatLE cs := by
  induction bs with
  | nil => simp [toNatLE]
  | cons b bs ih =>
    simp only [List.cons_append, toNatLE, ih, List.length_cons, Nat.pow_succ', Nat.mul_add,
      Nat.mul_assoc]
    omega

/-! ### High zero bytes -/

theorem toNatLE_dropZeros (bs : Bytes) : toNatLE (dropZeros bs) = toNatLE bs := by
  induction bs with
  | nil => rfl
  | cons b bs ih =>
    rw [dropZeros, toNatLE, ← ih]
    split
    · rename_i h
      split
      · rename_i hb
        simp [hb, h, toNatLE]
      · simp [h, toNatLE]
    · rfl

theorem toNatLE_trim (bs : Bytes) : toNatLE (trim bs) = toNatLE bs := by
  cases bs with
  | nil => rfl
  | cons b bs => simp [trim, toNatLE, toNatLE_dropZeros]

theorem dropZeros_eq_nil_or_concat (bs : Bytes) :
    dropZeros bs = [] ∨ ∃ front last, dropZeros bs = front ++ [last] ∧ last.toNat ≠ 0 := by
  fun_induction dropZeros bs with
  | case1 => exact .inl rfl
  | case2 => exact .inl rfl
  | case3 b bs hnil hb => exact .inr ⟨[], b, rfl, fun hzero => hb (UInt8.toNat_inj.1 hzero)⟩
  | case4 b bs hne ih =>
    rcases ih with hnil | ⟨front, last, hconcat, hlast⟩
    · exact absurd hnil hne
    · exact .inr ⟨b :: front, last, by rw [hconcat, List.cons_append], hlast⟩

end Bytes

end MergedMining
