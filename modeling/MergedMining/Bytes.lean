/-!
# Byte strings

Little-endian and big-endian numerals in base 256, and the shortest little-endian form of a number.
-/

namespace MergedMining

/-- A byte string. -/
abbrev Bytes := List UInt8

namespace Bytes

/-- The `width` low bytes of a number, least significant byte first. -/
def ofNatLE : Nat → Nat → Bytes
  | 0, _ => []
  | width + 1, n => UInt8.ofNat n :: ofNatLE width (n / 256)

/-- The number whose bytes, least significant first, are the given ones. -/
def toNatLE : Bytes → Nat
  | [] => 0
  | b :: bs => b.toNat + 256 * toNatLE bs

/-- The `width` low bytes of a number, most significant byte first. -/
def ofNatBE (width n : Nat) : Bytes :=
  (ofNatLE width n).reverse

/-- The number whose bytes, most significant first, are the given ones. -/
def toNatBE (bs : Bytes) : Nat :=
  toNatLE bs.reverse

/-- Removes zero bytes from the end. -/
def dropZeros : Bytes → Bytes
  | [] => []
  | b :: bs =>
    match dropZeros bs with
    | [] => if b = 0 then [] else [b]
    | rest => b :: rest

/-- Removes zero bytes from the end, but never the first byte. -/
def trim : Bytes → Bytes
  | [] => []
  | b :: bs => b :: dropZeros bs

/-- The bytes of a text in UTF-8. -/
def ofText (s : String) : Bytes :=
  s.toUTF8.toList

@[simp] theorem length_ofNatLE (width n : Nat) : (ofNatLE width n).length = width := by
  induction width generalizing n with
  | zero => rfl
  | succ width ih => simp [ofNatLE, ih]

@[simp] theorem length_ofNatBE (width n : Nat) : (ofNatBE width n).length = width := by
  simp [ofNatBE]

end Bytes

end MergedMining
