import MergedMining.Numeral
import MergedMining.Quoted.Invisible

/-!
# Quoted text in messages

A text inside a message stands between quotes.  The quote itself, backslashes and line ends are escaped by a
backslash, and characters that show nothing of their own by their number.
-/

namespace MergedMining

namespace Quoted

/-- A character inside the given quotes. -/
def escape (mark c : Char) : List Char :=
  if c = '\t' then ['\\', 't']
  else if c = '\r' then ['\\', 'r']
  else if c = '\n' then ['\\', 'n']
  else if c.toNat = 0 then ['\\', '0']
  else if c = mark ∨ c = '\\' then ['\\', c]
  else if isInvisible c then '\\' :: 'u' :: '\x7b' :: (Numeral.toHex 1 c.toNat).toList ++ ['\x7d']
  else [c]

/-- A character in single quotes. -/
def char (c : Char) : String :=
  String.ofList ('\'' :: escape '\'' c ++ ['\''])

/-- A text in double quotes. -/
def text (s : String) : String :=
  String.ofList ('"' :: s.toList.flatMap (escape '"') ++ ['"'])

end Quoted

end MergedMining
