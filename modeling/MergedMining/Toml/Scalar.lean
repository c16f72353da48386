import MergedMining.Decimal.Reading
import MergedMining.Json.Basic
import MergedMining.Numeral

/-!
# Strings and numbers of TOML

Strings are basic (with escapes) or literal (without), on one line or on several; on several lines a newline
right behind the opening quotes is dropped, every line ends with a line feed, and a backslash at the end of a
line joins it to the next text.  Whole numbers have 64 bits with sign; single underscores may stand between
digits, and decimal numbers have no leading zeros.  Each reader takes a value off the front of a text and leaves
what stands behind it.
-/

namespace MergedMining

namespace Toml

/-! ### Characters -/

/-- Whether a character may stand in a string or a comment. -/
def isText (c : Char) : Bool := c = '\t' || (0x20 ≤ c.toNat && c.toNat ≠ 0x7f)

/-- Whether a character is a blank. -/
def isBlank (c : Char) : Bool := c = ' ' || c = '\t'

/-- The text behind leading blanks. -/
def skipBlanks (cs : List Char) : List Char := cs.dropWhile isBlank

/-- The text behind a newline. -/
def newline? : List Char → Option (List Char)
  | '\n' :: rest => some rest
  | '\r' :: '\n' :: rest => some rest
  | _ => none

/-- The text behind a newline, if there is one. -/
def skipNewline (cs : List Char) : List Char := (newline? cs).getD cs

/-! ### Strings -/

/-- The character with a code point in hexadecimal digits. -/
def codePoint? (digits : List Char) : Option Char := do
  let n ← digits.foldlM (fun n c => (Numeral.digit? 16 c).map (n * 16 + ·)) 0
  if n.isValidChar then some (Char.ofNat n) else none

/-- The character of a one-letter escape. -/
def escape? (c : Char) : Option Char :=
  if c = '"' ∨ c = '\\' then some c
  else if c = 'b' then some (Char.ofNat 8)
  else if c = 't' then some '\t'
  else if c = 'n' then some '\n'
  else if c = 'f' then some (Char.ofNat 12)
  else if c = 'r' then some '\r'
  else none

/-- The character behind a backslash, and the text behind it. -/
def escaped? : List Char → Option (Char × List Char)
  | 'u' :: a :: b :: c :: d :: rest => (codePoint? [a, b, c, d]).map (·, rest)
  | 'U' :: a :: b :: c :: d :: e :: f :: g :: h :: rest => (codePoint? [a, b, c, d, e, f, g, h]).map (·, rest)
  | c :: rest => (escape? c).map (·, rest)
  | [] => none

/-- A basic string behind its opening quote. -/
def basic? : Nat → List Char → List Char → Option (String × List Char)
  | 0, _, _ => none
  | fuel + 1, cs, acc =>
    match cs with
    | [] => none
    | '"' :: rest => some (String.ofList acc.reverse, rest)
    | '\\' :: rest => (escaped? rest).bind fun (c, rest) => basic? fuel rest (c :: acc)
    | c :: rest => if isText c then basic? fuel rest (c :: acc) else none

/-- A literal string behind its opening quote. -/
def literal? (cs : List Char) : Option (String × List Char) :=
  match cs.span (fun c => isText c && c ≠ '\'') with
  | (content, '\'' :: rest) => some (String.ofList content, rest)
  | _ => none

/-- Up to two quotes that belong to a string although three quotes stood in front of them. -/
def extraQuotes (quote : Char) : List Char → List Char × List Char
  | a :: b :: rest =>
    if a = quote then if b = quote then ([a, b], rest) else ([a], b :: rest) else ([], a :: b :: rest)
  | [a] => if a = quote then ([a], []) else ([], [a])
  | [] => ([], [])

/-- The text behind blanks and newlines. -/
def skipSpace : List Char → List Char
  | ' ' :: rest => skipSpace rest
  | '\t' :: rest => skipSpace rest
  | '\n' :: rest => skipSpace rest
  | '\r' :: '\n' :: rest => skipSpace rest
  | cs => cs

/-- A string on several lines behind its opening quotes; only the basic one (`escapes`) has escapes. -/
def lines? (quote : Char) (escapes : Bool) : Nat → List Char → List Char → Option (String × List Char)
  | 0, _, _ => none
  | fuel + 1, cs, acc =>
    match cs with
    | [] => none
    | '\n' :: rest => lines? quote escapes fuel rest ('\n' :: acc)
    | '\r' :: '\n' :: rest => lines? quote escapes fuel rest ('\n' :: acc)
    | c :: rest =>
      if cs.take 3 = [quote, quote, quote] then
        let (extra, rest) := extraQuotes quote (cs.drop 3)
        some (String.ofList (acc.reverse ++ extra), rest)
      else if escapes ∧ c = '\\' then
        if (newline? (skipBlanks rest)).isSome then lines? quote escapes fuel (skipSpace rest) acc
        else (escaped? rest).bind fun (c, rest) => lines? quote escapes fuel rest (c :: acc)
      else if isText c then lines? quote escapes fuel rest (c :: acc)
      else none

/-- A string with its quotes. -/
def string? (cs : List Char) : Option (String × List Char) :=
  match cs with
  | '"' :: '"' :: '"' :: rest => lines? '"' true cs.length (skipNewline rest) []
  | '\'' :: '\'' :: '\'' :: rest => lines? '\'' false cs.length (skipNewline rest) []
  | '"' :: rest => basic? cs.length rest []
  | '\'' :: rest => literal? rest
  | _ => none

/-! ### Numbers and truth values -/

/-- Digits with single underscores between them, without the underscores. -/
def ungroup? (ok : Char → Bool) : List Char → Option (List Char)
  | [] => none
  | [c] => if ok c then some [c] else none
  | c :: '_' :: rest => if ok c then (ungroup? ok rest).map (c :: ·) else none
  | c :: rest => if ok c then (ungroup? ok rest).map (c :: ·) else none

/-- Whether a character is a digit of a radix. -/
def isDigit (radix : Nat) (c : Char) : Bool := (Numeral.digit? radix c).isSome

/-- A whole number in a radix, behind the mark of the radix. -/
def radixInteger? (radix : Nat) (cs : List Char) : Option Json := do
  let digits ← ungroup? (isDigit radix) cs
  match Numeral.parse radix 0x8000000000000000 (String.ofList digits) with
  | .ok n => some (.int n)
  | .error _ => none

/-- The digits in front of point and exponent; more than one of them do not begin with a zero. -/
def wholeDigits? (cs : List Char) : Option (List Char) :=
  match cs with
  | '0' :: _ :: _ => none
  | cs => ungroup? (isDigit 10) cs

/-- An exponent with its letter, or nothing. -/
def exponent? : List Char → Option (List Char)
  | [] => some []
  | e :: '+' :: rest => (ungroup? (isDigit 10) rest).map fun ds => e :: '+' :: ds
  | e :: '-' :: rest => (ungroup? (isDigit 10) rest).map fun ds => e :: '-' :: ds
  | e :: rest => (ungroup? (isDigit 10) rest).map (e :: ·)

/-- Whether a letter begins an exponent. -/
def isExponentMark (c : Char) : Bool := c = 'e' || c = 'E'

/-- A decimal number behind its sign. -/
def decimal? (sign : List Char) (cs : List Char) : Option Json := do
  let (front, exponent) := cs.span fun c => !isExponentMark c
  let (whole, fraction) := front.span (· ≠ '.')
  let whole ← wholeDigits? whole
  if fraction.isEmpty ∧ exponent.isEmpty then
    match Numeral.parse 10 0x8000000000000001 (String.ofList whole), sign with
    | .ok n, ['-'] => some (.int (-(n : Int)))
    | .ok n, _ => if n < 0x8000000000000000 then some (.int n) else none
    | .error _, _ => none
  else
    let places ← match fraction with
      | [] => some []
      | _ :: digits => (ungroup? (isDigit 10) digits).map ('.' :: ·)
    let exponent ← exponent? exponent
    let x ← Decimal.parse? (String.ofList (sign ++ whole ++ places ++ exponent))
    if x == 1 / 0 then none else some (.float x)

/-- A number or truth value as a word of its own. -/
def word? (cs : List Char) : Option Json :=
  let (sign, rest) := match cs with
    | '+' :: rest => (['+'], rest)
    | '-' :: rest => (['-'], rest)
    | _ => ([], cs)
  match sign, rest with
  | _, ['i', 'n', 'f'] => some (.float (if sign = ['-'] then -1 / 0 else 1 / 0))
  | _, ['n', 'a', 'n'] => some (.float (0 / 0))
  | [], ['t', 'r', 'u', 'e'] => some (.bool true)
  | [], ['f', 'a', 'l', 's', 'e'] => some (.bool false)
  | [], '0' :: 'x' :: digits => radixInteger? 16 digits
  | [], '0' :: 'o' :: digits => radixInteger? 8 digits
  | [], '0' :: 'b' :: digits => radixInteger? 2 digits
  | _, digits => decimal? sign digits

/-- Whether a character may stand in a bare key. -/
def isBare (c : Char) : Bool := c.isAlphanum || c = '-' || c = '_'

/-- Whether a character may stand in a number. -/
def isWord (c : Char) : Bool := isBare c || c = '+' || c = '.'

/-- A string, number or truth value. -/
def scalar? (cs : List Char) : Option (Json × List Char) :=
  match string? cs with
  | some (s, rest) => some (.str s, rest)
  | none =>
    let (word, rest) := cs.span isWord
    (word? word).map (·, rest)

end Toml

end MergedMining
