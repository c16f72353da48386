import MergedMining.Decimal.Binary64

/-!
# The shortest decimal that reads back

Of all decimals that round to a given double the one with the fewest digits is chosen, and of several with that
many digits the one nearest the double.  For one, two, … seventeen digits the search looks at the two neighbours
of the value on the grid of decimals with that many digits; the first grid with a neighbour inside the rounding
interval wins.
-/

namespace MergedMining

namespace Decimal

/-- The positive decimal `0.d₁d₂… * 10 ^ point`, where `digits` is the number written `d₁d₂…`. -/
structure Digits where
  digits : List Char
  point : Int
  deriving Repr, DecidableEq

/-- The number of decimal digits of a number, none for zero. -/
def length (n : Nat) : Nat :=
  if n = 0 then 0 else length (n / 10) + 1
termination_by n
decreasing_by omega

/-- How often `num / den` can be multiplied by ten and stay below one, at most `fuel` times. -/
def zerosBehindPoint : Nat → Nat → Nat → Nat
  | 0, _, _ => 0
  | fuel + 1, num, den => if num * 10 < den then zerosBehindPoint fuel (num * 10) den + 1 else 0

/-- The `point` with `10 ^ (point - 1) ≤ num / den < 10 ^ point`, for a positive fraction. -/
def magnitude (num den : Nat) : Int :=
  if den ≤ num then length (num / den) else -(zerosBehindPoint den.log2 num den : Nat)

/-- The interval of fractions that round to one double, over a common denominator. -/
structure Interval where
  low : Nat
  value : Nat
  high : Nat
  den : Nat
  closed : Bool

/-- The rounding interval of `mantissa * 2 ^ exponent`; its ends belong to it when the mantissa is even. -/
def Interval.ofParts (p : Binary64.Parts) : Interval :=
  let scale := 1 <<< (p.exponent - 2).toNat
  { low := (4 * p.mantissa - if p.narrow then 1 else 2) * scale
    value := 4 * p.mantissa * scale
    high := (4 * p.mantissa + 2) * scale
    den := 1 <<< (2 - p.exponent).toNat
    closed := p.mantissa % 2 = 0 }

/-- Whether `c / 10 ^ places` lies in the interval; `places` may be negative. -/
def Interval.contains (i : Interval) (places : Int) (c : Nat) : Bool :=
  let x := c * i.den * Nat.pow 10 (-places).toNat
  let low := i.low * Nat.pow 10 places.toNat
  let high := i.high * Nat.pow 10 places.toNat
  if i.closed then decide (low ≤ x ∧ x ≤ high) else decide (low < x ∧ x < high)

/-- The neighbour of the value on the grid of multiples of `10 ^ (-places)` that lies in the interval, the
nearer of two. -/
def Interval.pick (i : Interval) (places : Int) : Option Nat :=
  let num := i.value * Nat.pow 10 places.toNat
  let den := i.den * Nat.pow 10 (-places).toNat
  let below := num / den
  let twiceRest := 2 * (num % den)
  match i.contains places below, i.contains places (below + 1) with
  | true, true =>
    if twiceRest < den ∨ (twiceRest = den ∧ below % 2 = 0) then some below else some (below + 1)
  | true, false => some below
  | false, true => some (below + 1)
  | false, false => none

/-- The first of the grids with `count`, `count + 1`, … digits that has a decimal inside the interval, with its
number of places. -/
def Interval.search (i : Interval) (point : Int) : Nat → Nat → Nat × Int
  | 0, count => (i.value / i.den, count - point)
  | fuel + 1, count =>
    match i.pick (count - point) with
    | some c => (c, count - point)
    | none => i.search point fuel (count + 1)

/-- The decimal digits of a number, most significant first. -/
def digitChars (n : Nat) : List Char :=
  (toString n).toList

/-- The shortest digits of a positive double. -/
def shortest (p : Binary64.Parts) : Digits :=
  let i := Interval.ofParts p
  let (c, places) := i.search (magnitude i.value i.den) 17 1
  let chars := digitChars c
  { digits := (chars.reverse.dropWhile (· == '0')).reverse
    point := chars.length - places }

end Decimal

end MergedMining
