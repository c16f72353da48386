import MergedMining.Hash.Sha256

/-!
# Scrypt

The proof-of-work digest of a header: the header is password and salt of scrypt with 1024 iterations, one block
of 128 bytes and one lane.  The block is stretched from the header, mixed twice 1024 times with a table of its
own earlier states, and folded into 32 bytes.
-/

namespace MergedMining

namespace Scrypt

/-- The number of states kept in the table. -/
def cost : Nat := 1024

/-- The keyed digest of a message. -/
def hmac (key message : Bytes) : Bytes :=
  let key := if 64 < key.length then sha256 key else key
  let key := key ++ List.replicate (64 - key.length) 0
  sha256 (key.map (· ^^^ 0x5c) ++ sha256 (key.map (· ^^^ 0x36) ++ message))

/-- Stretches a password and a salt to `blocks` digests. -/
def stretch (password salt : Bytes) (blocks : Nat) : Bytes :=
  (List.range blocks).flatMap fun i => hmac password (salt ++ Bytes.ofNatBE 4 (i + 1))

/-- The words of a byte string, four bytes each, least significant byte first. -/
def wordsLE : Bytes → List UInt32
  | a :: b :: c :: d :: rest =>
    (a.toUInt32 ||| (b.toUInt32 <<< 8) ||| (c.toUInt32 <<< 16) ||| (d.toUInt32 <<< 24)) :: wordsLE rest
  | _ => []

/-- The four bytes of a word, least significant byte first. -/
def bytesLE (w : UInt32) : Bytes :=
  [w.toUInt8, (w >>> 8).toUInt8, (w >>> 16).toUInt8, (w >>> 24).toUInt8]

/-- A word turned left by some bits. -/
def rotateLeft (x : UInt32) (bits : UInt32) : UInt32 :=
  (x <<< bits) ||| (x >>> (32 - bits))

/-- Adds two words, turns the sum, and mixes it into a third. -/
def step (x : Array UInt32) (target left right : Nat) (bits : UInt32) : Array UInt32 :=
  x.setIfInBounds target
    (x.getD target 0 ^^^ rotateLeft (x.getD left 0 + x.getD right 0) bits)

/-- Four steps on four of the words. -/
def quarterRound (x : Array UInt32) (a b c d : Nat) : Array UInt32 :=
  let x := step x b a d 7
  let x := step x c b a 9
  let x := step x d c b 13
  step x a d c 18

/-- A round down the columns and one along the rows of sixteen words. -/
def doubleRound (x : Array UInt32) : Array UInt32 :=
  let x := quarterRound x 0 4 8 12
  let x := quarterRound x 5 9 13 1
  let x := quarterRound x 10 14 2 6
  let x := quarterRound x 15 3 7 11
  let x := quarterRound x 0 1 2 3
  let x := quarterRound x 5 6 7 4
  let x := quarterRound x 10 11 8 9
  quarterRound x 15 12 13 14

/-- The word-wise sum of sixteen words and the words after eight rounds. -/
def salsa (x : Array UInt32) : Array UInt32 :=
  let y := doubleRound (doubleRound (doubleRound (doubleRound x)))
  Array.zipWith (· + ·) x y

/-- The word-wise exclusive or. -/
def xor (x y : Array UInt32) : Array UInt32 :=
  Array.zipWith (· ^^^ ·) x y

/-- Mixes the two halves of a block of thirty-two words. -/
def blockMix (block : Array UInt32) : Array UInt32 :=
  let first := block.extract 0 16
  let second := block.extract 16 32
  let first := salsa (xor second first)
  first ++ salsa (xor first second)

/-- Mixes a block once for each table entry, and keeps what it was before. -/
def fill : Nat → Array UInt32 → Array (Array UInt32) → Array UInt32 × Array (Array UInt32)
  | 0, block, table => (block, table)
  | count + 1, block, table => fill count (blockMix block) (table.push block)

/-- Mixes a block with the table entry that it selects itself. -/
def mix (table : Array (Array UInt32)) : Nat → Array UInt32 → Array UInt32
  | 0, block => block
  | count + 1, block =>
    let entry := table.getD ((block.getD 16 0).toNat % cost) #[]
    mix table count (blockMix (xor block entry))

end Scrypt

/-- The proof-of-work digest of a byte string. -/
def scrypt (input : Bytes) : Bytes :=
  let block := (Scrypt.wordsLE (Scrypt.stretch input input 4)).toArray
  let (block, table) := Scrypt.fill Scrypt.cost block #[]
  let block := Scrypt.mix table Scrypt.cost block
  Scrypt.stretch input (block.toList.flatMap Scrypt.bytesLE) 1

@[simp] theorem length_scrypt (input : Bytes) : (scrypt input).length = 32 := by
  simp [scrypt, Scrypt.stretch, Scrypt.hmac]

end MergedMining
