/-!
# Numerals in a fixed radix

`parse` reads an unsigned number below a limit: an optional plus sign, then at least one digit of the radix.  It says
which of three things is wrong, and of two faults the one further left wins.  `toHex` writes the lowercase hexadecimal
digits of a number, padded with zeros on the left.
-/

namespace MergedMining

namespace Numeral

/-- Why a text is no numeral. -/
inductive Error
  | empty
  | invalidDigit
  | tooLarge
  deriving Repr, DecidableEq

/-- The text of a fault. -/
def Error.message : Error → String
  | .empty => "cannot parse integer from empty string"
  | .invalidDigit => "invalid digit found in string"
  | .tooLarge => "number too large to fit in target type"

/-- The value of a digit, letters of both cases counting on from ten. -/
def digit? (radix : Nat) (c : Char) : Option Nat :=
  let value :=
    if '0' ≤ c ∧ c ≤ '9' then c.toNat - '0'.toNat
    else if 'a' ≤ c ∧ c ≤ 'z' then c.toNat - 'a'.toNat + 10
    else if 'A' ≤ c ∧ c ≤ 'Z' then c.toNat - 'A'.toNat + 10
    else radix
  if value < radix then some value else none

/-- Reads digits onto a value that has to stay below `limit`. -/
def readDigits (radix limit : Nat) : Nat → List Char → Except Error Nat
  | value, [] => .ok value
  | value, c :: cs =>
    match digit? radix c with
    | none => .error .invalidDigit
    | some d =>
      if value * radix + d < limit then readDigits radix limit (value * radix + d) cs
      else .error .tooLarge

/-- Reads a numeral whose value has to be below `limit`. -/
def parse (radix limit : Nat) (s : String) : Except Error Nat :=
  match s.toList with
  | [] => .error .empty
  | ['+'] => .error .invalidDigit
  | '+' :: cs => readDigits radix limit 0 cs
  | cs => readDigits radix limit 0 cs

/-- The lowercase hexadecimal digit of a value below sixteen. -/
def hexDigit (d : Nat) : Char :=
  if d < 10 then Char.ofNat ('0'.toNat + d) else Char.ofNat ('a'.toNat + (d - 10))

/-- The hexadecimal digits of a positive number, and none of zero. -/
def hexDigits (n : Nat) : List Char :=
  if n = 0 then [] else hexDigits (n / 16) ++ [hexDigit (n % 16)]
termination_by n
decreasing_by omega

/-- The hexadecimal digits of a number, with zeros in front up to `width` digits. -/
def toHex (width n : Nat) : String :=
  String.ofList ((hexDigits n).leftpad width '0')

end Numeral

end MergedMining
