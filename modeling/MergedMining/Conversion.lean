import MergedMining.Chain
import MergedMining.Decimal.Reading
import MergedMining.Failure
import MergedMining.Target

/-!
# Conversions of difficulty

A person gives work as compact bits (eight hexadecimal digits), as a target (sixty-four of them) or as a difficulty
(anything else), and is shown it in every form.
-/

namespace MergedMining

/-- A target in every form. -/
structure Conversion where
  target : Target
  difficulty : Float
  shareDifficulty : Float
  deriving Repr

namespace Conversion

/-- Whether all characters are hexadecimal digits. -/
def isHex (s : String) : Bool :=
  s.toList.all fun c => (Numeral.digit? 16 c).isSome

/-- The target that a text stands for; its length decides how it is read. -/
def read (value : String) : Except Failure Target :=
  if value.utf8ByteSize = 8 && isHex value then (Target.ofBits value).mapError .ofEncoding
  else if value.utf8ByteSize = 64 && isHex value then (Target.parse value).mapError .ofEncoding
  else
    match Decimal.parse? value with
    | none => .error (.notConvertible value)
    | some d => (Target.ofDifficulty d).mapError .ofEncoding

/-- A target in every form, share difficulty in the measure of a chain. -/
def ofTarget (chain : Chain) (t : Target) : Conversion :=
  ⟨t, t.difficulty, t.difficulty * chain.shareMultiplier⟩

/-- Converts a text. -/
def ofText (chain : Chain) (value : String) : Except Failure Conversion :=
  (read value).map (ofTarget chain)

/-- The compact bits of the target. -/
def bits (c : Conversion) : String := Numeral.toHex 8 c.target.toCompact

/-- Writes a conversion. -/
def toJson (c : Conversion) : Json :=
  .obj [("bits", .str c.bits), ("target", .str c.target.toText), ("difficulty", .float c.difficulty),
    ("share_difficulty", .float c.shareDifficulty)]

end Conversion

end MergedMining
