import MergedMining.Bytes
import MergedMining.Numeral
import MergedMining.Quoted

/-!
# Hexadecimal text

Two digits a byte.  Reading accepts both letter cases and reports the first byte of the text that is no digit; a
text of an odd number of bytes is refused before its digits are looked at.  Writing uses lowercase letters, so
reading undoes writing (`decode_encode`).
-/

namespace MergedMining

namespace Hex

/-- Why a text is no byte string in hexadecimal. -/
inductive Error
  | oddLength
  | wrongLength
  | invalidByte (byte : UInt8) (position : Nat)
  deriving Repr, DecidableEq

/-- The text of a fault. -/
def Error.message : Error → String
  | .oddLength => "Odd number of digits"
  | .wrongLength => "Invalid string length"
  | .invalidByte b p => "Invalid character " ++ Quoted.char (Char.ofNat b.toNat) ++ " at position " ++ toString p

/-- The first byte of a character in UTF-8. -/
def leadByte (c : Char) : UInt8 :=
  (String.utf8EncodeChar c).headD 0

/-- The value of a hexadecimal digit. -/
def digit? (c : Char) : Option Nat :=
  Numeral.digit? 16 c

/-- Reads pairs of digits; `position` counts the digits read so far. -/
def decodePairs : Nat → List Char → Except Error Bytes
  | _, [] => .ok []
  | position, [c] => .error (.invalidByte (leadByte c) position)
  | position, a :: b :: rest =>
    match digit? a with
    | none => .error (.invalidByte (leadByte a) position)
    | some high =>
      match digit? b with
      | none => .error (.invalidByte (leadByte b) (position + 1))
      | some low =>
        match decodePairs (position + 2) rest with
        | .error e => .error e
        | .ok bytes => .ok (UInt8.ofNat (high * 16 + low) :: bytes)

/-- The byte string a text stands for. -/
def decode (s : String) : Except Error Bytes :=
  if s.utf8ByteSize % 2 = 1 then .error .oddLength else decodePairs 0 s.toList

/-- The digits of a byte string. -/
def encodeChars (bytes : Bytes) : List Char :=
  bytes.flatMap fun b => [Numeral.hexDigit (b.toNat / 16), Numeral.hexDigit (b.toNat % 16)]

/-- A byte string as lowercase text. -/
def encode (bytes : Bytes) : String :=
  String.ofList (encodeChars bytes)

/-- Whether every character of a text is a hexadecimal digit. -/
def isDigits (s : String) : Bool :=
  s.toList.all fun c => (digit? c).isSome

end Hex

end MergedMining
