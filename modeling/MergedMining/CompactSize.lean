import MergedMining.Bytes

/-!
# Compact sizes

Counts and lengths inside transactions and blocks: one byte below `253`, else a marker byte and two, four or
eight bytes, least significant first.
-/

namespace MergedMining

namespace CompactSize

/-- The compact size of a number below `2 ^ 64`. -/
def encode (n : Nat) : Bytes :=
  if n ≤ 0xfc then [UInt8.ofNat n]
  else if n ≤ 0xffff then 0xfd :: Bytes.ofNatLE 2 n
  else if n ≤ 0xffffffff then 0xfe :: Bytes.ofNatLE 4 n
  else 0xff :: Bytes.ofNatLE 8 n

/-- A number in its next `width` bytes, and the bytes behind it. -/
def readLE (width : Nat) (bytes : Bytes) : Option (Nat × Bytes) :=
  if width ≤ bytes.length then some (Bytes.toNatLE (bytes.take width), bytes.drop width) else none

/-- The number in front of a byte string, and the bytes behind it. -/
def decode : Bytes → Option (Nat × Bytes)
  | [] => none
  | marker :: bytes =>
    if marker = 0xff then readLE 8 bytes
    else if marker = 0xfe then readLE 4 bytes
    else if marker = 0xfd then readLE 2 bytes
    else some (marker.toNat, bytes)

end CompactSize

end MergedMining
