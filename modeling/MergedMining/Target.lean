import MergedMining.Hex.Reversal

/-!
# Targets

A proof of work is a 256-bit number, and it solves a block when it is at or below the block's target.  Targets
come as compact bits (a mantissa of three bytes and a length), as hexadecimal text in either byte order, and as
a difficulty: the highest target divided by the target.
-/

namespace MergedMining

/-- How many numbers of 256 bits there are. -/
abbrev Target.size : Nat := 0x1_0000000000000000_0000000000000000_0000000000000000_0000000000000000

/-- A 256-bit number: the target of a block, or the work done on one. -/
structure Target where
  toNat : Nat
  isLt : toNat < Target.size
  deriving Repr, DecidableEq

namespace Target

/-- The low 256 bits of a number. -/
def ofNat (n : Nat) : Target :=
  ⟨n % size, Nat.mod_lt _ (by decide)⟩

/-- The greatest 256-bit number. -/
def max : Target := ofNat (size - 1)

/-- The target of difficulty one. -/
def highest : Target := ofNat (0xffff0000 <<< 192)

/-- The number with the given bytes, most significant byte first. -/
def ofBytesBE (bs : Bytes) : Target :=
  ofNat (Bytes.toNatBE bs)

/-- The thirty-two bytes of a target, most significant byte first. -/
def toBytesBE (t : Target) : Bytes :=
  Bytes.ofNatBE 32 t.toNat

/-- A target as sixty-four hexadecimal digits. -/
def toText (t : Target) : String :=
  Hex.encode t.toBytesBE

instance : LE Target := ⟨fun a b => a.toNat ≤ b.toNat⟩

instance (a b : Target) : Decidable (a ≤ b) :=
  inferInstanceAs (Decidable (a.toNat ≤ b.toNat))

/-! ### Text -/

/-- Reads up to sixty-four hexadecimal digits. -/
def parse (s : String) : Except EncodingFault Target :=
  if s.utf8ByteSize = 0 ∨ 64 < s.utf8ByteSize then .error (.targetLength s)
  else
    let padded := String.ofList (s.toList.leftpad 64 '0')
    match Hex.decode padded with
    | .error .oddLength => .error (.targetDigits s .oddLength)
    | .error e =>
      if padded.utf8ByteSize ≠ 64 then .error (.targetDigits s .wrongLength)
      else .error (.targetDigits s e)
    | .ok bs =>
      if padded.utf8ByteSize ≠ 64 then .error (.targetDigits s .wrongLength)
      else .ok (ofBytesBE bs)

/-- Reads pairs of hexadecimal digits, least significant pair first. -/
def parseLE (s : String) : Except EncodingFault Target :=
  match Hex.reversePairs s with
  | .error e => .error e
  | .ok reversed => parse reversed

/-! ### Compact bits -/

/-- The target of compact bits: the low twenty-three bits are shifted left by whole bytes, as many as the top
byte says less three. -/
def ofCompact (compact : Nat) : Except EncodingFault Target :=
  let exponent := compact >>> 24
  let mantissa := compact % 0x800000
  if mantissa ≠ 0 ∧ (compact >>> 23) % 2 = 1 then .error (.negativeBits compact)
  else if mantissa ≠ 0 ∧
      (34 < exponent ∨ (0xff < mantissa ∧ 33 < exponent) ∨ (0xffff < mantissa ∧ 32 < exponent)) then
    .error (.overflowingBits compact)
  else if exponent ≤ 3 then .ok (ofNat (mantissa >>> (8 * (3 - exponent))))
  else .ok (ofNat (mantissa <<< (8 * (exponent - 3))))

/-- The number of bytes that a number takes. -/
def byteLength (n : Nat) : Nat :=
  if n = 0 then 0 else n.log2 / 8 + 1

/-- The compact bits of a target: its three highest bytes, or two when the top bit of the three is set. -/
def toCompact (t : Target) : Nat :=
  let length := byteLength t.toNat
  let top :=
    if length ≤ 3 then t.toNat <<< (8 * (3 - length)) else t.toNat >>> (8 * (length - 3))
  if (top >>> 23) % 2 = 1 then top / 256 + ((length + 1) <<< 24) else top + (length <<< 24)

/-- Reads eight hexadecimal digits of compact bits. -/
def ofBits (bits : String) : Except EncodingFault Target :=
  if bits.utf8ByteSize ≠ 8 then .error (.bitsLength bits)
  else
    match Numeral.parse 16 UInt32.size bits with
    | .error e => .error (.bitsDigits bits e)
    | .ok compact => ofCompact compact

/-! ### Difficulty -/

/-- A target as a double, its words of 64 bits added from the top. -/
def toFloat (t : Target) : Float :=
  [3, 2, 1, 0].foldl (fun acc (i : Nat) =>
    acc * 18446744073709551616 + (UInt64.ofNat (t.toNat >>> (64 * i))).toFloat) 0

/-- How often the highest target is as large; no work is enough for target zero. -/
def difficulty (t : Target) : Float :=
  if t.toNat = 0 then 1 / 0 else highest.toFloat / t.toFloat

/-- The highest target shifted left, in 512 bits. -/
def shiftedHighest (shift : Nat) : BitVec 512 := BitVec.ofNat 512 highest.toNat <<< shift

/-- The highest target divided by a difficulty, rounded down, and at most the greatest target. -/
def ofDifficulty (d : Float) : Except EncodingFault Target :=
  match Binary64.parts d with
  | none => .error (.difficulty d)
  | some p =>
    if p.negative ∨ p.mantissa = 0 then .error (.difficulty d)
    else if 0 ≤ p.exponent then
      .ok (ofNat ((highest.toNat >>> p.exponent.toNat) / p.mantissa))
    else
      let shift := p.exponent.natAbs
      if 256 ≤ shift then .ok max
      else .ok (ofNat (Nat.min (size - 1) ((shiftedHighest shift).toNat / p.mantissa)))

end Target

end MergedMining
