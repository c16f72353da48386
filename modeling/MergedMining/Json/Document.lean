import MergedMining.Decimal.Reading
import MergedMining.Json.Basic
import MergedMining.Numeral

/-!
# Reading JSON text

A text is first read into a `Document`, which only fails on malformed syntax.  A number too large for a double
and a string with half a surrogate pair are well formed but have no value, and values nest at most 127 deep:
`Document.value?` fails on these.  A part of a document that nobody asks for does no harm.
-/

namespace MergedMining

namespace Json

/-- A well-formed JSON text. -/
inductive Document
  | leaf (value : Option Json)
  | arr (items : List Document)
  | obj (members : List (Option String × Document))

/-- How deep arrays and objects may nest. -/
def maxDepth : Nat := 127

/-! ### Strings -/

/-- A character of a string as it is written: itself, or a code unit of sixteen bits. -/
inductive Piece
  | char (c : Char)
  | unit (n : Nat)

/-- The value of four hexadecimal digits. -/
def unit? (a b c d : Char) : Option Nat :=
  [a, b, c, d].foldlM (fun n x => (Numeral.digit? 16 x).map (n * 16 + ·)) 0

/-- The character of a two-letter escape. -/
def escape? (c : Char) : Option Char :=
  if c = '"' ∨ c = '\\' ∨ c = '/' then some c
  else if c = 'b' then some (Char.ofNat 8)
  else if c = 'f' then some (Char.ofNat 12)
  else if c = 'n' then some '\n'
  else if c = 'r' then some '\r'
  else if c = 't' then some '\t'
  else none

/-- The pieces of a string up to its closing quote, and the text behind it. -/
def pieces? : List Char → List Piece → Option (List Piece × List Char)
  | [], _ => none
  | '"' :: rest, acc => some (acc.reverse, rest)
  | '\\' :: 'u' :: a :: b :: c :: d :: rest, acc =>
    match unit? a b c d with
    | some n => pieces? rest (.unit n :: acc)
    | none => none
  | '\\' :: e :: rest, acc =>
    match escape? e with
    | some c => pieces? rest (.char c :: acc)
    | none => none
  | c :: rest, acc => if c.toNat < 0x20 then none else pieces? rest (.char c :: acc)

/-- The string of the pieces, none when half a surrogate pair stands alone. -/
def assemble? : List Piece → List Char → Option String
  | [], acc => some (String.ofList acc.reverse)
  | .char c :: rest, acc => assemble? rest (c :: acc)
  | .unit n :: .unit m :: rest, acc =>
    if 0xd800 ≤ n ∧ n < 0xdc00 then
      if 0xdc00 ≤ m ∧ m < 0xe000 then
        assemble? rest (Char.ofNat (0x10000 + (n - 0xd800) * 0x400 + (m - 0xdc00)) :: acc)
      else none
    else if 0xdc00 ≤ n ∧ n < 0xe000 then none
    else assemble? (.unit m :: rest) (Char.ofNat n :: acc)
  | .unit n :: rest, acc =>
    if 0xd800 ≤ n ∧ n < 0xe000 then none else assemble? rest (Char.ofNat n :: acc)

/-- A string behind its opening quote, and the text behind it. -/
def string? (cs : List Char) : Option (Option String × List Char) :=
  (pieces? cs []).map fun (ps, rest) => (assemble? ps [], rest)

/-! ### Numbers -/

/-- Whether a character is a decimal digit. -/
def isDigit (c : Char) : Bool := '0' ≤ c ∧ c ≤ '9'

/-- Digits read onto a significand of 64 bits; from the first digit that does not fit on, digits are only counted. -/
def significand : Nat → List Char → Nat × Nat × List Char
  | s, [] => (s, 0, [])
  | s, c :: cs =>
    if isDigit c then
      if s * 10 + (c.toNat - '0'.toNat) < UInt64.size then significand (s * 10 + (c.toNat - '0'.toNat)) cs
      else (s, ((c :: cs).takeWhile isDigit).length, (c :: cs).dropWhile isDigit)
    else (s, 0, c :: cs)

/-- The digits behind the point: the significand they extend, how many of them went into it, and the text behind. -/
def fraction (s : Nat) (cs : List Char) : Nat × Nat × List Char :=
  let count := (cs.takeWhile isDigit).length
  let (s', dropped, rest) := significand s cs
  (s', count - dropped, rest)

/-- An exponent behind its letter. -/
def exponentPart? (cs : List Char) : Option (Int × List Char) :=
  let (negative, cs) := match cs with
    | '-' :: rest => (true, rest)
    | '+' :: rest => (false, rest)
    | _ => (false, cs)
  match Decimal.digitRun 0 0 cs with
  | (_, 0, _) => none
  | (e, _, rest) => some (if negative then -(e : Int) else e, rest)

/-- The value of a number without point and exponent. -/
def wholeNumber (negative : Bool) (s : Nat) : Json :=
  if negative then
    if s = 0 ∨ 0x8000000000000000 < s then .float (-(UInt64.ofNat s).toFloat) else .int (-(s : Int))
  else .int s

/-- The value of a number with point or exponent. -/
def scaled? (negative : Bool) (s : Nat) (exponent : Int) : Option Json :=
  (Decimal.scale s exponent).map fun x => .float (if negative then -x else x)

/-- What follows the digits in front of the point: `dropped` of them did not fit into the significand. -/
def numberTail? (negative : Bool) (s dropped : Nat) (cs : List Char) :
    Option (Option Json × List Char) :=
  let exponent (s : Nat) (start : Int) (rest : List Char) :=
    (exponentPart? rest).map fun (e, rest) => (scaled? negative s (start + e), rest)
  match cs with
  | '.' :: c :: rest =>
    if isDigit c then
      let (s, places, rest) := fraction s (c :: rest)
      let start : Int := dropped - places
      match rest with
      | 'e' :: rest => exponent s start rest
      | 'E' :: rest => exponent s start rest
      | _ => some (scaled? negative s start, rest)
    else none
  | '.' :: [] => none
  | 'e' :: rest => exponent s dropped rest
  | 'E' :: rest => exponent s dropped rest
  | _ => some (if dropped = 0 then some (wholeNumber negative s) else scaled? negative s dropped, cs)

/-- An unsigned number at the front of a text. -/
def unsigned? (negative : Bool) : List Char → Option (Option Json × List Char)
  | '0' :: c :: rest => if isDigit c then none else numberTail? negative 0 0 (c :: rest)
  | '0' :: [] => numberTail? negative 0 0 []
  | c :: rest =>
    if isDigit c then
      let (s, dropped, rest) := significand 0 (c :: rest)
      numberTail? negative s dropped rest
    else none
  | [] => none

/-- A number at the front of a text. -/
def number? : List Char → Option (Option Json × List Char)
  | '-' :: rest => unsigned? true rest
  | cs => unsigned? false cs

/-! ### Documents -/

/-- Whether a character may stand between tokens. -/
def isSpace (c : Char) : Bool := c = ' ' ∨ c = '\n' ∨ c = '\t' ∨ c = '\r'

/-- The text behind leading space. -/
def skipSpace (cs : List Char) : List Char := cs.dropWhile isSpace

mutual

/-- A document at the front of a text; `fuel` bounds the number of tokens. -/
def document? : Nat → List Char → Option (Document × List Char)
  | 0, _ => none
  | fuel + 1, cs =>
    match skipSpace cs with
    | 'n' :: 'u' :: 'l' :: 'l' :: rest => some (.leaf (some .null), rest)
    | 't' :: 'r' :: 'u' :: 'e' :: rest => some (.leaf (some (.bool true)), rest)
    | 'f' :: 'a' :: 'l' :: 's' :: 'e' :: rest => some (.leaf (some (.bool false)), rest)
    | '"' :: rest => (string? rest).map fun (s, rest) => (.leaf (s.map .str), rest)
    | '[' :: rest =>
      match skipSpace rest with
      | ']' :: rest => some (.arr [], rest)
      | rest => (items? fuel rest []).map fun (items, rest) => (.arr items, rest)
    | '\x7b' :: rest =>
      match skipSpace rest with
      | '\x7d' :: rest => some (.obj [], rest)
      | rest => (members? fuel rest []).map fun (members, rest) => (.obj members, rest)
    | cs => (number? cs).map fun (v, rest) => (.leaf v, rest)

/-- The items of an array up to its closing bracket. -/
def items? : Nat → List Char → List Document → Option (List Document × List Char)
  | 0, _, _ => none
  | fuel + 1, cs, acc =>
    match document? fuel cs with
    | none => none
    | some (item, rest) =>
      match skipSpace rest with
      | ',' :: rest => items? fuel rest (item :: acc)
      | ']' :: rest => some ((item :: acc).reverse, rest)
      | _ => none

/-- The members of an object up to its closing brace. -/
def members? : Nat → List Char → List (Option String × Document) →
    Option (List (Option String × Document) × List Char)
  | 0, _, _ => none
  | fuel + 1, cs, acc =>
    match skipSpace cs with
    | '"' :: rest =>
      match string? rest with
      | none => none
      | some (key, rest) =>
        match skipSpace rest with
        | ':' :: rest =>
          match document? fuel rest with
          | none => none
          | some (value, rest) =>
            match skipSpace rest with
            | ',' :: rest => members? fuel rest ((key, value) :: acc)
            | '\x7d' :: rest => some (((key, value) :: acc).reverse, rest)
            | _ => none
        | _ => none
    | _ => none

end

/-- The document that a text is. -/
def Document.parse? (s : String) : Option Document :=
  let cs := s.toList
  match document? (2 * cs.length + 2) cs with
  | some (d, rest) => if (skipSpace rest).isEmpty then some d else none
  | none => none

mutual

/-- The value of a document that nests at most `room` deep. -/
def Document.value? : Nat → Document → Option Json
  | _, .leaf v => v
  | 0, .arr _ => none
  | 0, .obj _ => none
  | room + 1, .arr items => (itemValues? room items).map .arr
  | room + 1, .obj members => (memberValues? room members).map fun ms => .obj ms

/-- The values of the items. -/
def itemValues? : Nat → List Document → Option (List Json)
  | _, [] => some []
  | room, d :: ds =>
    match d.value? room, itemValues? room ds with
    | some v, some vs => some (v :: vs)
    | _, _ => none

/-- The values of the members, in key order, the last of equal keys kept. -/
def memberValues? : Nat → List (Option String × Document) → Option (List (String × Json))
  | _, [] => some []
  | room, (key, d) :: rest =>
    match key, d.value? room, memberValues? room rest with
    | some k, some v, some ms => some (insertMember k v ms)
    | _, _, _ => none

end

/-- The value that a text stands for. -/
def parse? (s : String) : Option Json :=
  (Document.parse? s).bind fun d => d.value? maxDepth

end Json

end MergedMining
