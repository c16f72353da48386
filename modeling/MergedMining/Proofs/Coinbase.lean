import MergedMining.Coinbase
import MergedMining.Proofs.Hex
import MergedMining.Proofs.Outcome
import MergedMining.Proofs.Transaction

/-!
# The coinbase is a transaction

The two halves of a coinbase and the extranonce between them are one transaction (`around_isCoinbase`), although
the first half gives the length of a script whose end is in the second one (`around_eq_toBytes`).
-/

namespace MergedMining

/-! ### What a template commits to -/

/-- The scripts of the outputs in front of the reward: the witness commitment, when there is one. -/
def BlockTemplate.Commits (template : BlockTemplate) (commitments : List Bytes) : Prop :=
  (template.witnessCommitment.getD "" = "" → commitments = []) ∧
    ∀ text, template.witnessCommitment = some text → text ≠ "" →
      ∃ commitment, Hex.bytes text = .ok commitment ∧ commitments = [commitment]

/-- A coinbase: a transaction with one input that spends nothing, whose script holds the height, the extranonce
and the signature, each of the first and the last behind its length. -/
def Transaction.ofCoinbase (height extranonce signature : Bytes) (outputs : List Output) : Transaction where
  version := 1
  inputs := [{
    previous := List.replicate 32 0
    index := 0xffffffff
    script := UInt8.ofNat height.length :: height ++ extranonce ++ UInt8.ofNat signature.length :: signature
    sequence := 0 }]
  outputs
  lockTime := 0

/-- The form of the bytes of a coinbase: one transaction, with the height of its template, and with the reward
as its last output. -/
def Coinbase.IsCoinbase (template : BlockTemplate) (script signature extranonce bytes : Bytes) : Prop :=
  ∃ height commitments,
    Transaction.parse bytes = some (.ofCoinbase height extranonce signature
      (commitments.map (⟨0, ·⟩) ++ [⟨template.value, script⟩]), []) ∧
    height.length ≤ 8 ∧ signature.length ≤ 255 ∧ Bytes.toNatLE height = template.height.toNat ∧
    template.Commits commitments

namespace Coinbase

/-! ### Parts -/

theorem outputs_eq_ok {template : BlockTemplate} {script : Bytes} {os : List Bytes} :
    outputs template script = .ok os ↔
      ∃ commitments, template.Commits commitments ∧
        os = commitments.map (output 0) ++ [output template.value.toNat script] := by
  have hnone : .ok [output template.value.toNat script] = (.ok os : Except EncodingFault _) ↔
      ∃ commitments, commitments = [] ∧ os = commitments.map (output 0) ++ [output template.value.toNat script] := by
    rw [Except.ok.injEq, exists_eq_left, eq_comm]
    rfl
  unfold outputs BlockTemplate.Commits
  rcases template.witnessCommitment with _ | text
  · simpa using hnone
  · by_cases hempty : text = ""
    · simpa [hempty] using hnone
    · simp only [String.isEmpty_iff, hempty, if_false, Outcome.map_eq_ok, Option.getD_some, false_implies, true_and,
        Option.some.injEq, forall_eq', ne_eq, not_false_eq_true, true_implies]
      constructor
      · rintro ⟨commitment, hcommitment, rfl⟩
        exact ⟨_, ⟨commitment, hcommitment, rfl⟩, rfl⟩
      · rintro ⟨_, ⟨commitment, hcommitment, rfl⟩, rfl⟩
        exact ⟨commitment, hcommitment, rfl⟩

theorem build_eq_ok {template : BlockTemplate} {script signature : Bytes} {size : Nat} {c : Coinbase} :
    build template script signature size = .ok c ↔
      signature.length < 256 ∧ ∃ os, outputs template script = .ok os ∧
        c = ⟨initialOf template.height (signature.length + 1 + size), UInt8.ofNat signature.length :: signature ++
          ([0, 0, 0, 0] ++ CompactSize.encode os.length ++ os.flatten ++ [0, 0, 0, 0])⟩ := by
  unfold build arbitrary finalOf
  by_cases hlen : signature.length < 256
  · simp only [hlen, if_true, Outcome.map_eq_ok, true_and, List.length_cons]
    constructor
    · rintro ⟨_, ⟨os, hos, rfl⟩, rfl⟩
      exact ⟨os, hos, rfl⟩
    · rintro ⟨os, hos, rfl⟩
      exact ⟨_, ⟨os, hos, rfl⟩, rfl⟩
  · simp [hlen]

/-! ### The height -/

theorem length_dropZeros_le (bs : Bytes) : (Bytes.dropZeros bs).length ≤ bs.length := by
  fun_induction Bytes.dropZeros bs with
  | case1 => exact Nat.le_refl _
  | case2 => simp
  | case3 => simp
  | case4 b bs hne ih => simpa using ih

theorem length_heightBytes_le (height : UInt64) : (heightBytes height).length ≤ 8 := by
  rw [heightBytes, Bytes.ofNatLE, Bytes.trim]
  have := length_dropZeros_le (Bytes.ofNatLE 7 (height.toNat / 256))
  rw [Bytes.length_ofNatLE] at this
  simp only [List.length_cons]
  omega

theorem toNatLE_heightBytes (height : UInt64) : Bytes.toNatLE (heightBytes height) = height.toNat := by
  have hlt : height.toNat < 256 ^ 8 := height.toNat_lt
  rw [heightBytes, Bytes.toNatLE_trim, Bytes.toNatLE_ofNatLE, Nat.mod_eq_of_lt hlt]

/-! ### The whole -/

theorem initialOf_eq (height : UInt64) (length : Nat) :
    initialOf height length = Bytes.ofNatLE 4 1 ++ CompactSize.encode 1 ++ List.replicate 32 0 ++
      Bytes.ofNatLE 4 0xffffffff ++ CompactSize.encode (length + (heightBytes height).length + 1) ++
      UInt8.ofNat (heightBytes height).length :: heightBytes height := by
  have hlen := length_heightBytes_le height
  have hsize : CompactSize.encode (heightBytes height).length = [UInt8.ofNat (heightBytes height).length] := by
    rw [CompactSize.encode, if_pos (by omega)]
  rw [initialOf, hsize]
  simp only [List.append_assoc, List.cons_append, List.nil_append]
  rfl

theorem output_eq_toBytes (value : UInt64) (script : Bytes) :
    output value.toNat script = Transaction.Output.toBytes ⟨value, script⟩ := by
  rw [output, List.append_assoc]
  rfl

private theorem flatten_outputs (commitments : List Bytes) (value : UInt64) (script : Bytes) :
    (commitments.map (output 0) ++ [output value.toNat script]).flatten =
      List.flatMap Transaction.Output.toBytes (commitments.map (⟨0, ·⟩) ++ [⟨value, script⟩]) := by
  have hzero : ∀ bs, output 0 bs = Transaction.Output.toBytes ⟨0, bs⟩ := output_eq_toBytes 0
  simp only [output_eq_toBytes, funext hzero, List.flatMap_def, List.map_append, List.map_map, Function.comp_def,
    List.map_cons, List.map_nil]

/-- The halves of a coinbase, put around an extranonce of the size that was kept free, are the bytes of a
transaction. -/
theorem around_eq_toBytes {template : BlockTemplate} {script signature extranonce : Bytes} {c : Coinbase}
    (hbuild : build template script signature extranonce.length = .ok c) :
    signature.length ≤ 255 ∧ ∃ commitments, template.Commits commitments ∧
      c.around extranonce = (Transaction.ofCoinbase (heightBytes template.height) extranonce signature
        (commitments.map (⟨0, ·⟩) ++ [⟨template.value, script⟩])).toBytes := by
  obtain ⟨hlen, os, hos, rfl⟩ := build_eq_ok.1 hbuild
  obtain ⟨commitments, hcommits, rfl⟩ := outputs_eq_ok.1 hos
  refine ⟨by omega, commitments, hcommits, ?_⟩
  -- the length that the first half announces is that of a script whose end is in the second half
  have hscript : signature.length + 1 + extranonce.length + (heightBytes template.height).length + 1 =
      (UInt8.ofNat (heightBytes template.height).length :: heightBytes template.height ++ extranonce ++
        UInt8.ofNat signature.length :: signature).length := by
    simp only [List.length_append, List.length_cons]
    omega
  rw [around, initialOf_eq, flatten_outputs, hscript]
  simp only [Transaction.ofCoinbase, Transaction.toBytes, Transaction.counted, Transaction.Input.toBytes,
    Transaction.sized, List.flatMap_cons, List.flatMap_nil, List.append_assoc, List.length_append, List.length_map,
    List.length_cons, List.length_nil, List.append_nil, List.cons_append]
  rfl

/-- The halves of a coinbase, put around an extranonce of the size that was kept free, are read as one transaction. -/
theorem around_isCoinbase {template : BlockTemplate} {script signature extranonce : Bytes} {c : Coinbase}
    (hbuild : build template script signature extranonce.length = .ok c)
    (hlen : (c.around extranonce).length < 2 ^ 64) :
    IsCoinbase template script signature extranonce (c.around extranonce) := by
  obtain ⟨hsignature, commitments, hcommits, htx⟩ := around_eq_toBytes hbuild
  rw [htx] at hlen ⊢
  have hsized := Transaction.sized_of_length hlen (by simp [Transaction.ofCoinbase])
  have hparse := Transaction.parse_toBytes hsized []
  rw [List.append_nil] at hparse
  exact ⟨heightBytes template.height, commitments, hparse, length_heightBytes_le _, hsignature,
    toNatLE_heightBytes _, hcommits⟩

end Coinbase

end MergedMining
