import MergedMining.Blank
import MergedMining.Bytes
import MergedMining.Ip
import MergedMining.Numeral

/-!
# Hosts in URLs

A host is an address in brackets, a name, or four bytes written as up to four numbers.  In the schemes of the
web a name is read through its percent escapes, and one whose last part is a number has to be an address;
elsewhere it is taken as it is.
-/

namespace MergedMining

namespace Url

/-- The characters that no host holds. -/
def forbidden : List Char := "\x00\t\n\r #/:<>?@[\\]^|".toList

/-- Whether a character may stand in the name of a host on the web. -/
def isNameChar (c : Char) : Bool :=
  0x20 < c.toNat && c.toNat ≠ 0x7f && c ≠ '%' && !forbidden.contains c && (c.toNat < 0x80 || !Blank.isBlank c)

/-- The bytes of a text, percent escapes replaced by the bytes they stand for. -/
def unescape : Bytes → Bytes
  | 0x25 :: a :: b :: rest =>
    match Numeral.digit? 16 (Char.ofNat a.toNat), Numeral.digit? 16 (Char.ofNat b.toNat) with
    | some high, some low => UInt8.ofNat (high * 16 + low) :: unescape rest
    | _, _ => 0x25 :: unescape (a :: b :: rest)
  | b :: rest => b :: unescape rest
  | [] => []

/-! ### Numbers -/

/-- The radix of a number and its digits: sixteen behind `0x`, eight behind another leading zero, else ten. -/
def radixOf : List Char → Nat × List Char
  | '0' :: 'x' :: digits => (16, digits)
  | '0' :: 'X' :: digits => (16, digits)
  | '0' :: c :: digits => (8, c :: digits)
  | digits => (10, digits)

/-- A number; nothing behind the mark of its radix is zero. -/
def number? (part : List Char) : Option Nat := do
  if part.isEmpty then none
  let (radix, digits) := radixOf part
  digits.foldlM (fun n c => (Numeral.digit? radix c).map (n * radix + ·)) 0

/-- The parts of a name between its dots; a dot at the end adds none. -/
def parts (name : List Char) : List (List Char) :=
  let all := Ip.split '.' name
  if 1 < all.length ∧ all.getLast? = some [] then all.dropLast else all

/-- Whether the last part of a name is a number. -/
def endsInNumber (name : List Char) : Bool :=
  match (parts name).getLast? with
  | some last => (!last.isEmpty && last.all Char.isDigit) || (number? last).isSome
  | none => false

/-- Whether numbers make up an address: all but the last are bytes, and the last fills the bytes that are left. -/
def areAddress (numbers : List Nat) : Bool :=
  match numbers.reverse with
  | [] => false
  | last :: front => numbers.length ≤ 4 && front.all (· < 256) && last < 1 <<< (8 * (5 - numbers.length))

/-- Whether a name is an address of numbers. -/
def isNumeric (name : List Char) : Bool :=
  match (parts name).mapM number? with
  | some numbers => areAddress numbers
  | none => false

/-! ### Hosts -/

/-- Whether a text is an address in brackets. -/
def isBracketed (host : List Char) : Bool :=
  match host.reverse with
  | ']' :: inner => (Ip.eightGroups? inner.reverse.tail).isSome
  | _ => false

/-- Whether a text is a host on the web. -/
def isWebHost (host : List Char) : Bool :=
  if host.head? = some '[' then isBracketed host
  else
    match String.fromUTF8? ⟨(unescape (Bytes.ofText (String.ofList host))).toArray⟩ with
    | none => false
    | some name =>
      let name := name.toList
      !name.isEmpty && name.all isNameChar && (!endsInNumber name || isNumeric name)

/-- Whether a text is a host outside the web; it may be empty. -/
def isOtherHost (host : List Char) : Bool :=
  if host.head? = some '[' then isBracketed host else host.all fun c => !forbidden.contains c

end Url

end MergedMining
