import MergedMining.Work

/-!
# Merge-mined proofs of work

A merge-mined chain accepts the work done on a parent block whose coinbase commits to its block.  The proof holds the
coinbase, the way from it to the root of the parent's transactions, and the parent's header.
-/

namespace MergedMining

/-- The proof that a parent block with enough work commits to a block. -/
structure AuxPow where
  coinbase : Bytes
  parentHash : Bytes
  branch : List Bytes
  header : Bytes
  deriving Repr, DecidableEq

namespace AuxPow

/-- The proof from a parent block whose work is known. -/
def ofBlock (b : Block) : Except StateFault AuxPow :=
  match b.hash with
  | none => .error .sumMissing
  | some hash =>
    match b.header with
    | none => .error .parentHeaderMissing
    | some header => .ok ⟨b.coinbase, hash, b.work.steps, header⟩

/-- The bytes of a proof.  The coinbase is the first leaf of the parent's tree, and the committed block the only
leaf of the tree of merge-mined chains, so both indices are zero and the second branch is empty. -/
def toBytes (p : AuxPow) : Bytes :=
  p.coinbase ++ p.parentHash ++ CompactSize.encode p.branch.length ++ p.branch.flatten ++ [0, 0, 0, 0] ++
    [0] ++ [0, 0, 0, 0] ++ p.header

/-- A proof as text. -/
def toText (p : AuxPow) : String :=
  Hex.encode p.toBytes

end AuxPow

end MergedMining
