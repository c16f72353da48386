import MergedMining.Hex

/-!
# Notices of new blocks

A daemon announces each new block in a message of three frames: a topic, the hash of the block, and a number
that grows by one from message to message, so that a subscriber sees how many it has missed.
-/

namespace MergedMining

/-- A new block: its hash as it is shown, and the number of the message. -/
structure BlockNotice where
  hash : String
  sequence : UInt32
  deriving Repr, DecidableEq

/-- Why a message is no notice of a block. -/
inductive NoticeFault
  | frames (count : Nat)
  | topic
  | bodyLength (length : Nat)
  | sequenceLength (length : Nat)
  deriving Repr, DecidableEq

/-- The text of a notice fault. -/
def NoticeFault.message : NoticeFault → String
  | .frames count => s!"hashblock: expected 3 frames, got {count}"
  | .topic => "hashblock: wrong topic"
  | .bodyLength length => s!"hashblock: body len {length}"
  | .sequenceLength length => s!"hashblock: seq len {length}"

namespace BlockNotice

/-- The topic of notices. -/
def topic : Bytes := Bytes.ofText "hashblock"

/-- Reads the frames of a message. -/
def ofFrames : List Bytes → Except NoticeFault BlockNotice
  | [first, hash, sequence] =>
    if first ≠ topic then .error .topic
    else if hash.length ≠ 32 then .error (.bodyLength hash.length)
    else if sequence.length ≠ 4 then .error (.sequenceLength sequence.length)
    else .ok ⟨Hex.encode hash, UInt32.ofNat (Bytes.toNatLE sequence)⟩
  | frames => .error (.frames frames.length)

/-- How many messages were missed before this one, none when it is the next or the first. -/
def gap (previous : Option UInt32) (next : UInt32) : Option UInt32 :=
  match previous with
  | none => none
  | some previous => if next = previous + 1 then none else some (next - (previous + 1))

end BlockNotice

end MergedMining
