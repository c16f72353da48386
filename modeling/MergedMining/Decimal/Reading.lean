/-!
# Reading a double

`parse` accepts an optional sign and then `inf`, `infinity`, `nan` in any letter case or a decimal with an
optional point and exponent; the value is the nearest double.  `scale` is the cheaper rule that JSON documents
use: the leading digits as a double, times or over one power of ten.
-/

namespace MergedMining

namespace Decimal

/-- The double nearest to `digits * 10 ^ exponent`, infinite when too large. -/
def nearest (digits : Nat) (exponent : Int) : Float :=
  if digits = 0 then 0
  else
    if 400 < exponent + (digits.log2 * 3 / 10 : Nat) then 1 / 0
    else if exponent + (digits.log2 / 3 + 1 : Nat) < -400 then 0
    else if exponent < 0 then Float.ofScientific digits true (-exponent).toNat
    else Float.ofScientific digits false exponent.toNat

/-- A run of decimal digits at the front of a text: its value, its length and the rest. -/
def digitRun : Nat → Nat → List Char → Nat × Nat × List Char
  | value, count, [] => (value, count, [])
  | value, count, c :: cs =>
    if '0' ≤ c ∧ c ≤ '9' then digitRun (value * 10 + (c.toNat - '0'.toNat)) (count + 1) cs
    else (value, count, c :: cs)

/-- An exponent that makes up the whole of a text. -/
def exponent? (cs : List Char) : Option Int :=
  let (negative, cs) := match cs with
    | '-' :: rest => (true, rest)
    | '+' :: rest => (false, rest)
    | _ => (false, cs)
  match digitRun 0 0 cs with
  | (_, 0, _) => none
  | (e, _, []) => some (if negative then -(e : Int) else e)
  | _ => none

/-- An unsigned decimal that makes up the whole of a text. -/
def unsigned? (cs : List Char) : Option Float :=
  let (whole, wholeCount, cs) := digitRun 0 0 cs
  let (value, places, cs) := match cs with
    | '.' :: rest => digitRun whole 0 rest
    | _ => (whole, 0, cs)
  if wholeCount + places = 0 then none
  else
    match cs with
    | [] => some (nearest value (-(places : Int)))
    | c :: rest =>
      if c = 'e' ∨ c = 'E' then (exponent? rest).map fun e => nearest value (e - places) else none

/-- A double that makes up the whole of a text. -/
def parse? (s : String) : Option Float :=
  let (negative, cs) := match s.toList with
    | '-' :: rest => (true, rest)
    | '+' :: rest => (false, rest)
    | cs => (false, cs)
  let word := String.ofList (cs.map Char.toLower)
  let value :=
    if word = "inf" ∨ word = "infinity" then some (1 / 0)
    else if word = "nan" then some (0 / 0)
    else unsigned? cs
  value.map fun x => if negative then -x else x

/-- A power of ten up to `10 ^ 308`. -/
def powerOfTen (n : Nat) : Float :=
  Float.ofScientific 1 false n

/-- A double times `10 ^ exponent` by one multiplication or division with a power of ten, none when too large. -/
def scaleFinite (x : Float) (exponent : Int) : Option Float :=
  if exponent < 0 then some (x / powerOfTen exponent.natAbs)
  else
    let y := x * powerOfTen exponent.natAbs
    if y.isInf then none else some y

/-- `significand * 10 ^ exponent` in double arithmetic: a power below `10 ^ -308` is applied in two pieces, and
a result too large for a double is refused. -/
def scale (significand : Nat) (exponent : Int) : Option Float :=
  let f := (UInt64.ofNat significand).toFloat
  if exponent.natAbs ≤ 308 then scaleFinite f exponent
  else if significand = 0 then some f
  else if 0 ≤ exponent then none
  else if (exponent + 308).natAbs ≤ 308 then scaleFinite (f / powerOfTen 308) (exponent + 308)
  else some 0

end Decimal

end MergedMining
