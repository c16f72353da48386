/-!
# The exact value of a double

A finite double is a sign, a whole number and a power of two.  `Binary64.parts` reads the three off its bit
pattern, so that everything done with them afterwards is exact arithmetic on whole numbers.
-/

namespace MergedMining

namespace Binary64

/-- A finite double `± mantissa * 2 ^ exponent`, with `narrow` when the doubles just below it lie twice as close
as those just above. -/
structure Parts where
  negative : Bool
  mantissa : Nat
  exponent : Int
  narrow : Bool
  deriving Repr, DecidableEq

/-- The three fields of a bit pattern. -/
structure Fields where
  negative : Bool
  exponent : Nat
  fraction : Nat

/-- Sign bit, eleven exponent bits and fifty-two fraction bits. -/
def fields (bits : UInt64) : Fields where
  negative := 0x8000000000000000 ≤ bits.toNat
  exponent := (bits.toNat >>> 52) % 0x800
  fraction := bits.toNat % 0x10000000000000

/-- The value of a bit pattern, none of infinities and of what is no number. -/
def partsOfBits (bits : UInt64) : Option Parts :=
  let f := fields bits
  if f.exponent = 2047 then none
  else if f.exponent = 0 then some ⟨f.negative, f.fraction, -1074, false⟩
  else
    some ⟨f.negative, 0x10000000000000 + f.fraction, (f.exponent : Int) - 1075,
      decide (f.fraction = 0 ∧ 1 < f.exponent)⟩

/-- The exact value of a double, none of infinities and of what is no number. -/
def parts (x : Float) : Option Parts :=
  partsOfBits x.toBits

/-- The whole number nearest to a double, a half going away from zero.  What has no exact value stays as it is. -/
def round (x : Float) : Float :=
  match parts x with
  | none => x
  | some p =>
    if 0 ≤ p.exponent then x
    else
      let unit := 1 <<< (-p.exponent).toNat
      let whole := (UInt64.ofNat ((2 * p.mantissa + unit) / (2 * unit))).toFloat
      if p.negative then -whole else whole

end Binary64

end MergedMining
