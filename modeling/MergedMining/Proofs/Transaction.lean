import MergedMining.Proofs.CompactSize

/-!
# Transactions

The grammar of transactions without witnesses: a version, the inputs, the outputs and a lock time.  Counts and
lengths are compact sizes, and only the shortest form of a compact size is read.  Reading undoes writing and
leaves the bytes behind the transaction (`parse_toBytes`).
-/

namespace MergedMining

namespace Transaction

/-- What is spent: an output of an earlier transaction, and the script that unlocks it. -/
structure Input where
  previous : Bytes
  index : UInt32
  script : Bytes
  sequence : UInt32
  deriving Repr, DecidableEq

/-- What is paid, and the script that locks it. -/
structure Output where
  value : UInt64
  script : Bytes
  deriving Repr, DecidableEq

end Transaction

/-- A transaction. -/
structure Transaction where
  version : UInt32
  inputs : List Transaction.Input
  outputs : List Transaction.Output
  lockTime : UInt32
  deriving Repr, DecidableEq

namespace Transaction

variable {α : Type}

/-! ### Writing -/

/-- A byte string behind its length. -/
def sized (bs : Bytes) : Bytes := CompactSize.encode bs.length ++ bs

/-- Some items behind their number. -/
def counted (write : α → Bytes) (as : List α) : Bytes := CompactSize.encode as.length ++ as.flatMap write

/-- The bytes of an input. -/
def Input.toBytes (i : Input) : Bytes :=
  i.previous ++ Bytes.ofNatLE 4 i.index.toNat ++ sized i.script ++ Bytes.ofNatLE 4 i.sequence.toNat

/-- The bytes of an output. -/
def Output.toBytes (o : Output) : Bytes := Bytes.ofNatLE 8 o.value.toNat ++ sized o.script

/-- The bytes of a transaction. -/
def toBytes (t : Transaction) : Bytes :=
  Bytes.ofNatLE 4 t.version.toNat ++ counted Input.toBytes t.inputs ++ counted Output.toBytes t.outputs ++
    Bytes.ofNatLE 4 t.lockTime.toNat

/-! ### Reading -/

/-- A compact size in its shortest form, and the bytes behind it. -/
def size? (bytes : Bytes) : Option (Nat × Bytes) :=
  (CompactSize.decode bytes).filter fun r => CompactSize.encode r.1 ++ r.2 = bytes

/-- The next bytes, as many as asked for, and the bytes behind them. -/
def chunk? (size : Nat) (bytes : Bytes) : Option (Bytes × Bytes) :=
  if size ≤ bytes.length then some (bytes.take size, bytes.drop size) else none

/-- A byte string behind its length. -/
def sized? (bytes : Bytes) : Option (Bytes × Bytes) := do
  let (size, rest) ← size? bytes
  chunk? size rest

/-- As many items as asked for. -/
def several? (read : Bytes → Option (α × Bytes)) : Nat → Bytes → Option (List α × Bytes)
  | 0, bytes => some ([], bytes)
  | n + 1, bytes => do
    let (a, rest) ← read bytes
    let (as, rest) ← several? read n rest
    return (a :: as, rest)

/-- Some items behind their number. -/
def counted? (read : Bytes → Option (α × Bytes)) (bytes : Bytes) : Option (List α × Bytes) := do
  let (count, rest) ← size? bytes
  several? read count rest

/-- Reads an input. -/
def Input.parse (bytes : Bytes) : Option (Input × Bytes) := do
  let (previous, rest) ← chunk? 32 bytes
  let (index, rest) ← CompactSize.readLE 4 rest
  let (script, rest) ← sized? rest
  let (sequence, rest) ← CompactSize.readLE 4 rest
  return (⟨previous, UInt32.ofNat index, script, UInt32.ofNat sequence⟩, rest)

/-- Reads an output. -/
def Output.parse (bytes : Bytes) : Option (Output × Bytes) := do
  let (value, rest) ← CompactSize.readLE 8 bytes
  let (script, rest) ← sized? rest
  return (⟨UInt64.ofNat value, script⟩, rest)

/-- Reads a transaction, and gives the bytes behind it. -/
def parse (bytes : Bytes) : Option (Transaction × Bytes) := do
  let (version, rest) ← CompactSize.readLE 4 bytes
  let (inputs, rest) ← counted? Input.parse rest
  let (outputs, rest) ← counted? Output.parse rest
  let (lockTime, rest) ← CompactSize.readLE 4 rest
  return (⟨UInt32.ofNat version, inputs, outputs, UInt32.ofNat lockTime⟩, rest)

/-! ### Reading undoes writing -/

theorem size?_encode {n : Nat} (h : n < 2 ^ 64) (rest : Bytes) :
    size? (CompactSize.encode n ++ rest) = some (n, rest) := by
  rw [size?, CompactSize.decode_encode h]
  simp

theorem chunk?_append {size : Nat} {bs : Bytes} (h : bs.length = size) (rest : Bytes) :
    chunk? size (bs ++ rest) = some (bs, rest) := by
  rw [chunk?, if_pos (by simp [h]), List.take_left' h, List.drop_left' h]

theorem sized?_sized {bs : Bytes} (h : bs.length < 2 ^ 64) (rest : Bytes) :
    sized? (sized bs ++ rest) = some (bs, rest) := by
  rw [sized, List.append_assoc, sized?, size?_encode h]
  exact chunk?_append rfl rest

private theorem several?_flatMap {write : α → Bytes} {read : Bytes → Option (α × Bytes)} {as : List α}
    (h : ∀ a ∈ as, ∀ rest, read (write a ++ rest) = some (a, rest)) (rest : Bytes) :
    several? read as.length (as.flatMap write ++ rest) = some (as, rest) := by
  induction as with
  | nil => rfl
  | cons a as ih =>
    have hfirst := h a List.mem_cons_self
    have hothers : ∀ b ∈ as, ∀ rest, read (write b ++ rest) = some (b, rest) :=
      fun b hb => h b (List.mem_cons_of_mem a hb)
    simp only [List.length_cons, List.flatMap_cons, List.append_assoc, several?, hfirst, Option.bind_eq_bind,
      Option.bind_some, ih hothers]
    rfl

theorem counted?_counted {write : α → Bytes} {read : Bytes → Option (α × Bytes)} {as : List α}
    (hlen : as.length < 2 ^ 64) (h : ∀ a ∈ as, ∀ rest, read (write a ++ rest) = some (a, rest)) (rest : Bytes) :
    counted? read (counted write as ++ rest) = some (as, rest) := by
  rw [counted, List.append_assoc, counted?, size?_encode hlen]
  exact several?_flatMap h rest

private theorem readLE_word (w : UInt32) (rest : Bytes) :
    CompactSize.readLE 4 (Bytes.ofNatLE 4 w.toNat ++ rest) = some (w.toNat, rest) :=
  CompactSize.readLE_ofNatLE w.toNat_lt rest

/-- Lengths and counts that compact sizes can hold, and previous ids of the right length. -/
structure Sized (t : Transaction) : Prop where
  inputs : t.inputs.length < 2 ^ 64
  outputs : t.outputs.length < 2 ^ 64
  input : ∀ i ∈ t.inputs, i.previous.length = 32 ∧ i.script.length < 2 ^ 64
  output : ∀ o ∈ t.outputs, o.script.length < 2 ^ 64

private theorem length_le_flatMap (write : α → Bytes) {as : List α} {a : α} (h : a ∈ as) :
    (write a).length ≤ (as.flatMap write).length := by
  obtain ⟨front, back, rfl⟩ := List.append_of_mem h
  simp only [List.flatMap_append, List.flatMap_cons, List.length_append]
  omega

private theorem count_le_flatMap (write : α → Bytes) (as : List α) (h : ∀ a, 0 < (write a).length) :
    as.length ≤ (as.flatMap write).length := by
  induction as with
  | nil => exact Nat.le_refl _
  | cons a as ih =>
    have := h a
    simp only [List.length_cons, List.flatMap_cons, List.length_append]
    omega

/-- A transaction whose bytes can be counted in 64 bits has no length or count that a compact size cannot hold. -/
theorem sized_of_length {t : Transaction} (hlen : t.toBytes.length < 2 ^ 64)
    (hprevious : ∀ i ∈ t.inputs, i.previous.length = 32) : t.Sized := by
  simp only [toBytes, counted, List.length_append, Bytes.length_ofNatLE] at hlen
  constructor
  -- every item takes a byte at least, so there are no more items than bytes
  · have hpos : ∀ i : Input, 0 < i.toBytes.length := by
      intro i
      simp only [Input.toBytes, List.length_append, Bytes.length_ofNatLE]
      omega
    have := count_le_flatMap Input.toBytes t.inputs hpos
    omega
  · have hpos : ∀ o : Output, 0 < o.toBytes.length := by
      intro o
      simp only [Output.toBytes, List.length_append, Bytes.length_ofNatLE]
      omega
    have := count_le_flatMap Output.toBytes t.outputs hpos
    omega
  -- and every script is a part of the whole
  · intro i hi
    have := length_le_flatMap Input.toBytes hi
    refine ⟨hprevious i hi, ?_⟩
    simp only [Input.toBytes, sized, List.length_append] at this
    omega
  · intro o ho
    have := length_le_flatMap Output.toBytes ho
    simp only [Output.toBytes, sized, List.length_append] at this
    omega

theorem Input.parse_toBytes {i : Input} (hprevious : i.previous.length = 32) (hscript : i.script.length < 2 ^ 64)
    (rest : Bytes) : parse (i.toBytes ++ rest) = some (i, rest) := by
  simp only [Input.toBytes, List.append_assoc, Input.parse, chunk?_append hprevious, readLE_word,
    sized?_sized hscript, Option.bind_eq_bind, Option.bind_some, UInt32.ofNat_toNat]
  rfl

theorem Output.parse_toBytes {o : Output} (hscript : o.script.length < 2 ^ 64) (rest : Bytes) :
    parse (o.toBytes ++ rest) = some (o, rest) := by
  have hvalue : o.value.toNat < 256 ^ 8 := o.value.toNat_lt
  simp only [Output.toBytes, List.append_assoc, Output.parse, CompactSize.readLE_ofNatLE hvalue,
    sized?_sized hscript, Option.bind_eq_bind, Option.bind_some, UInt64.ofNat_toNat]
  rfl

/-- Reading a transaction in front of any bytes gives back the transaction and those bytes. -/
theorem parse_toBytes {t : Transaction} (h : t.Sized) (rest : Bytes) :
    parse (t.toBytes ++ rest) = some (t, rest) := by
  have hinput : ∀ i ∈ t.inputs, ∀ rest, Input.parse (i.toBytes ++ rest) = some (i, rest) :=
    fun i hi => Input.parse_toBytes (h.input i hi).1 (h.input i hi).2
  have houtput : ∀ o ∈ t.outputs, ∀ rest, Output.parse (o.toBytes ++ rest) = some (o, rest) :=
    fun o ho => Output.parse_toBytes (h.output o ho)
  simp only [toBytes, List.append_assoc, parse, readLE_word, counted?_counted h.inputs hinput,
    counted?_counted h.outputs houtput, Option.bind_eq_bind, Option.bind_some, UInt32.ofNat_toNat]
  rfl

end Transaction

end MergedMining
