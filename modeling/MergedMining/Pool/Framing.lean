import MergedMining.Bytes

/-!
# Lines of a connection

A line ends with a newline, and one carriage return in front of it is dropped.  A line of more than 1024 bytes
is a flood.  Bytes that are no text end the reading.
-/

namespace MergedMining

namespace Framing

/-- How many bytes a line may have. -/
def maxLength : Nat := 1024

/-- What the bytes received so far start with. -/
inductive Event
  | line (text : String) (rest : Bytes)
  | flood
  | unreadable
  | incomplete
  deriving Repr

/-- The bytes of a line without its carriage return. -/
def withoutReturn (bytes : Bytes) : Bytes :=
  if bytes.getLast? = some 13 then bytes.dropLast else bytes

/-- The text of bytes. -/
def text? (bytes : Bytes) : Option String :=
  String.fromUTF8? ⟨bytes.toArray⟩

/-- A line made of the given bytes. -/
def lineOf (bytes rest : Bytes) : Event :=
  match text? (withoutReturn bytes) with
  | some text => .line text rest
  | none => .unreadable

/-- Looks for a line at the front of the bytes received so far. -/
def next (bytes : Bytes) : Event :=
  let front := bytes.take (maxLength + 1)
  match front.idxOf? 10 with
  | some i => lineOf (front.take i) (bytes.drop (i + 1))
  | none => if maxLength < bytes.length then .flood else .incomplete

/-- What remains at the end of the stream, a last line without newline included. -/
def last (bytes : Bytes) : Event :=
  if bytes = [] ∨ bytes = [13] then .incomplete else lineOf bytes []

theorem length_rest_lt {bytes rest : Bytes} {text : String} (h : next bytes = .line text rest) :
    rest.length < bytes.length := by
  unfold next at h
  simp only at h
  split at h
  · rename_i i hi
    unfold lineOf at h
    split at h
    · cases h
      have : bytes ≠ [] := by
        rintro rfl
        simp at hi
      have : 0 < bytes.length := List.length_pos_iff.2 this
      simp only [List.length_drop]
      omega
    · cases h
  · split at h <;> cases h

end Framing

end MergedMining
