import MergedMining.Decimal.Shortest

/-!
# How a double is written

The digits come from `Decimal.shortest`; a `Layout` says where positional notation ends and how whole numbers
look.  Two layouts are in use: `Layout.json` for JSON documents and `Layout.plain` for messages.
-/

namespace MergedMining

namespace Decimal

/-- The choices of one way to write a double.  Positional notation is used while the decimal point of `0.d₁d₂…`
moves by more than `least` and at most `most` places. -/
structure Layout where
  least : Option Int
  most : Option Int
  wholeSuffix : String

/-- Doubles in JSON: a whole number keeps one zero behind the point, and the exponent is written from `1e+16` up
and from `1e-6` down. -/
def Layout.json : Layout := ⟨some (-5), some 16, ".0"⟩

/-- Doubles in messages: never an exponent, and a whole number has no point. -/
def Layout.plain : Layout := ⟨none, none, ""⟩

/-- Whether positional notation is used at this position of the point. -/
def Layout.positional (l : Layout) (point : Int) : Bool :=
  (match l.least with | none => true | some k => decide (k < point)) &&
    (match l.most with | none => true | some k => decide (point ≤ k))

/-- The text of a positive decimal. -/
def Layout.digits (l : Layout) (d : Digits) : String :=
  let count : Nat := d.digits.length
  if l.positional d.point then
    if d.point ≤ 0 then
      "0." ++ String.ofList (List.replicate (-d.point).toNat '0' ++ d.digits)
    else if (count : Int) ≤ d.point then
      String.ofList (d.digits ++ List.replicate (d.point.toNat - count) '0') ++ l.wholeSuffix
    else
      String.ofList (d.digits.take d.point.toNat ++ '.' :: d.digits.drop d.point.toNat)
  else
    let head := match d.digits with
      | [] => ""
      | [c] => c.toString
      | c :: cs => String.ofList (c :: '.' :: cs)
    let exponent := d.point - 1
    head ++ (if exponent < 0 then "e-" else "e+") ++ toString exponent.natAbs

/-- The text of a finite double, and none of the others. -/
def Layout.finite? (l : Layout) (x : Float) : Option String :=
  (Binary64.parts x).map fun p =>
    let text := if p.mantissa = 0 then "0" ++ l.wholeSuffix else l.digits (shortest p)
    if p.negative then "-" ++ text else text

/-- A double in a message: also infinities and what is no number have a text. -/
def toText (x : Float) : String :=
  match Layout.plain.finite? x with
  | some text => text
  | none => if x.isNaN then "NaN" else if x < 0 then "-inf" else "inf"

end Decimal

end MergedMining
