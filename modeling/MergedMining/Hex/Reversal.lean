import MergedMining.Fault

/-!
# Byte order in hexadecimal text

Daemons print hashes most significant byte first, while blocks hold them least significant byte first; miners
are sent the previous block hash with its four-byte words in reverse order.  `reversePairs` and `reverseWords`
turn one text into the other.
-/

namespace MergedMining

namespace Hex

/-- The byte string of a text, the text being part of the fault. -/
def bytes (s : String) : Except EncodingFault Bytes :=
  match decode s with
  | .ok bs => .ok bs
  | .error e => .error (.hex s e)

/-- The bytes of a text in reverse order, given how many there have to be. -/
def turned (width : Nat) (fault : Bytes → EncodingFault) (s : String) : Except EncodingFault Bytes :=
  match bytes s with
  | .error e => .error e
  | .ok bs => if bs.length = width then .ok bs.reverse else .error (fault bs)

/-- A byte string with its words of four bytes in reverse order. -/
def reverseWordBytes : Bytes → Bytes
  | a :: b :: c :: d :: rest => reverseWordBytes rest ++ [a, b, c, d]
  | rest => rest

/-- The text of the bytes in reverse order. -/
def reversePairs (s : String) : Except EncodingFault String :=
  if s.utf8ByteSize % 2 = 1 then .error (.oddText s.utf8ByteSize)
  else (bytes s).map fun bs => encode bs.reverse

/-- The text of the bytes with their four-byte words in reverse order. -/
def reverseWords (s : String) : Except EncodingFault String :=
  if s.utf8ByteSize % 8 ≠ 0 then .error (.partialWords s.utf8ByteSize)
  else (bytes s).map fun bs => encode (reverseWordBytes bs)

/-- A number in four or eight bytes, least significant byte first. -/
def littleEndian (n width : Nat) : Except EncodingFault Bytes :=
  if width = 4 then
    if n < UInt32.size then .ok (Bytes.ofNatLE 4 n) else .error (.fourBytes n)
  else if width = 8 then .ok (Bytes.ofNatLE 8 n)
  else .error (.width width)

end Hex

end MergedMining
