import MergedMining.CompactSize
import MergedMining.Template

/-!
# Coinbase transactions

The first transaction of a block pays the reward.  It is sent to miners in two halves around the place for their
extranonce.  The first half ends behind the height of the block; the second starts with the signature of the
pool and its length.
-/

namespace MergedMining

/-- The bytes in front of and behind the extranonce. -/
structure Coinbase where
  initial : Bytes
  final : Bytes
  deriving Repr, DecidableEq

namespace Coinbase

/-- The signature with its length in front. -/
def arbitrary (signature : Bytes) : Except EncodingFault Bytes :=
  if signature.length < 256 then .ok (UInt8.ofNat signature.length :: signature)
  else .error (.signatureLength signature.length)

/-- The bytes of a height without high zero bytes. -/
def heightBytes (height : UInt64) : Bytes :=
  Bytes.trim (Bytes.ofNatLE 8 height.toNat)

/-- Version, the null outpoint, the length of the script and the height; `arbitraryLength` bytes of the script
follow. -/
def initialOf (height : UInt64) (arbitraryLength : Nat) : Bytes :=
  let bytes := heightBytes height
  [1, 0, 0, 0] ++ [1] ++ List.replicate 32 0 ++ [0xff, 0xff, 0xff, 0xff] ++
    CompactSize.encode (arbitraryLength + bytes.length + 1) ++ CompactSize.encode bytes.length ++ bytes

/-- An output: its value, and its script behind the length of it. -/
def output (value : Nat) (script : Bytes) : Bytes :=
  Bytes.ofNatLE 8 value ++ CompactSize.encode script.length ++ script

/-- The outputs: the witness commitment, when there is one, and the reward. -/
def outputs (template : BlockTemplate) (script : Bytes) : Except EncodingFault (List Bytes) :=
  let reward := output template.value.toNat script
  match template.witnessCommitment with
  | none => .ok [reward]
  | some commitment =>
    if commitment.isEmpty then .ok [reward]
    else (Hex.bytes commitment).map fun bs => [output 0 bs, reward]

/-- Sequence number, outputs and lock time. -/
def finalOf (template : BlockTemplate) (script : Bytes) : Except EncodingFault Bytes :=
  (outputs template script).map fun os =>
    [0, 0, 0, 0] ++ CompactSize.encode os.length ++ os.flatten ++ [0, 0, 0, 0]

/-- The halves of the coinbase of a template. -/
def build (template : BlockTemplate) (script signature : Bytes) (extranonceSize : Nat) :
    Except EncodingFault Coinbase :=
  match arbitrary signature with
  | .error e => .error e
  | .ok bytes =>
    (finalOf template script).map fun final =>
      ⟨initialOf template.height (bytes.length + extranonceSize), bytes ++ final⟩

/-- The transaction with an extranonce in its place. -/
def around (c : Coinbase) (extranonce : Bytes) : Bytes :=
  c.initial ++ extranonce ++ c.final

end Coinbase

end MergedMining
