import MergedMining.Numeral

/-!
# Internet addresses

An address is four bytes or eight groups of sixteen bits.  Two texts name the same address exactly when they
read to the same value, so an address of four bytes differs from the same one mapped into eight groups.
-/

namespace MergedMining

/-- An internet address. -/
inductive Ip
  | four (bytes : List UInt8)
  | six (groups : List UInt16)
  deriving Repr, DecidableEq

namespace Ip

/-- The pieces of a text between the occurrences of a separator. -/
def split (separator : Char) : List Char → List (List Char)
  | [] => [[]]
  | c :: cs =>
    if c = separator then [] :: split separator cs
    else
      match split separator cs with
      | [] => [[c]]
      | first :: rest => (c :: first) :: rest

/-- A byte in decimal, without leading zeros. -/
def byte? (cs : List Char) : Option UInt8 :=
  match cs with
  | [] => none
  | '+' :: _ => none
  | '0' :: _ :: _ => none
  | cs =>
    match Numeral.parse 10 256 (String.ofList cs) with
    | .ok n => some (UInt8.ofNat n)
    | .error _ => none

/-- Four bytes with dots between them. -/
def fourBytes? (cs : List Char) : Option (List UInt8) :=
  match split '.' cs with
  | [a, b, c, d] => [a, b, c, d].mapM byte?
  | _ => none

/-- A group of one to four hexadecimal digits. -/
def group? (cs : List Char) : Option UInt16 :=
  match cs with
  | [] => none
  | '+' :: _ => none
  | cs =>
    if 4 < cs.length then none
    else
      match Numeral.parse 16 65536 (String.ofList cs) with
      | .ok n => some (UInt16.ofNat n)
      | .error _ => none

/-- Two bytes as a group. -/
def groupOf (high low : UInt8) : UInt16 :=
  UInt16.ofNat (high.toNat * 256 + low.toNat)

/-- Groups with colons between them; four bytes may stand for the last two. -/
def groups? (allowBytes : Bool) : List (List Char) → Option (List UInt16)
  | [] => some []
  | [last] =>
    match group? last with
    | some g => some [g]
    | none =>
      if allowBytes then
        match fourBytes? last with
        | some [a, b, c, d] => some [groupOf a b, groupOf c d]
        | _ => none
      else none
  | first :: rest => do return (← group? first) :: (← groups? allowBytes rest)

/-- The text in front of the first double colon, and the text behind it. -/
def splitGap : List Char → Option (List Char × List Char)
  | ':' :: ':' :: rest => some ([], rest)
  | c :: rest => (splitGap rest).map fun (front, back) => (c :: front, back)
  | [] => none

/-- The groups of a text that may be empty. -/
def groupsOrNone? (allowBytes : Bool) (cs : List Char) : Option (List UInt16) :=
  if cs.isEmpty then some [] else groups? allowBytes (split ':' cs)

/-- Eight groups, of which one run of zeros may be left out. -/
def eightGroups? (cs : List Char) : Option (List UInt16) :=
  match splitGap cs with
  | some (front, back) => do
    let front ← groupsOrNone? false front
    let back ← groupsOrNone? true back
    if front.length + back.length ≤ 7 then
      some (front ++ List.replicate (8 - front.length - back.length) 0 ++ back)
    else none
  | none => do
    let groups ← groups? true (split ':' cs)
    if groups.length = 8 then some groups else none

/-- Reads an address. -/
def parse? (s : String) : Option Ip :=
  match fourBytes? s.toList with
  | some bytes => some (.four bytes)
  | none => (eightGroups? s.toList).map .six

/-- Bytes with dots between them. -/
def bytesText (bytes : List UInt8) : String :=
  ".".intercalate (bytes.map fun b => toString b.toNat)

/-- Groups with colons between them. -/
def groupsText (groups : List UInt16) : String :=
  ":".intercalate (groups.map fun g => Numeral.toHex 1 g.toNat)

/-- The place and length of the first longest run of zeros. -/
def longestZeros (groups : List UInt16) : Nat × Nat :=
  (List.range groups.length).foldl (fun best start =>
    let run := ((groups.drop start).takeWhile (· = 0)).length
    if best.2 < run then (start, run) else best) (0, 0)

/-- The text of an address: the first longest run of at least two zero groups is left out, and four mapped bytes are
written as bytes. -/
def toText : Ip → String
  | .four bytes => bytesText bytes
  | .six groups =>
    match groups with
    | [0, 0, 0, 0, 0, 0xffff, high, low] =>
      "::ffff:" ++ bytesText ([high, low].flatMap fun g =>
        [UInt8.ofNat (g.toNat / 256), UInt8.ofNat (g.toNat % 256)])
    | _ =>
      let (start, run) := longestZeros groups
      if run < 2 then groupsText groups
      else groupsText (groups.take start) ++ "::" ++ groupsText (groups.drop (start + run))

end Ip

end MergedMining
