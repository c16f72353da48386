import MergedMining.Json.Document
import MergedMining.Json.Printer

/-!
# Strings are read as they are written

Every character is written as itself or as an escape, and either is read as one piece that stands for it.
-/

namespace MergedMining

namespace Json

/-- The piece as which a character is read back. -/
def Piece.ofChar (c : Char) : Piece :=
  if c.toNat < 0x20 ∧ c.toNat ≠ 8 ∧ c ≠ '\t' ∧ c ≠ '\n' ∧ c.toNat ≠ 12 ∧ c ≠ '\r' then .unit c.toNat else .char c

private theorem unit?_low {n : Nat} (h : n < 0x20) :
    unit? '0' '0' (Char.ofNat ('0'.toNat + n / 16))
      (if n % 16 < 10 then Char.ofNat ('0'.toNat + n % 16) else Char.ofNat ('a'.toNat + n % 16 - 10)) = some n := by
  have hall : ∀ n < 0x20, unit? '0' '0' (Char.ofNat ('0'.toNat + n / 16))
      (if n % 16 < 10 then Char.ofNat ('0'.toNat + n % 16) else Char.ofNat ('a'.toNat + n % 16 - 10)) = some n := by
    decide
  exact hall n h

private theorem pieces?_escapeChar (c : Char) (rest : List Char) (acc : List Piece) :
    pieces? (escapeChar c ++ rest) acc = pieces? rest (Piece.ofChar c :: acc) := by
  unfold escapeChar
  split
  · next h => subst h; rfl
  split
  · next h => subst h; rfl
  split
  · next h =>
    obtain rfl : c = Char.ofNat 8 := by rw [← h, Char.ofNat_toNat]
    rfl
  split
  · next h => subst h; rfl
  split
  · next h => subst h; rfl
  split
  · next h =>
    obtain rfl : c = Char.ofNat 12 := by rw [← h, Char.ofNat_toNat]
    rfl
  split
  · next h => subst h; rfl
  rename_i hquote hslash h8 htab hline h12 hreturn
  by_cases hlow : c.toNat < 0x20
  · have hpiece : Piece.ofChar c = .unit c.toNat := if_pos ⟨hlow, h8, htab, hline, h12, hreturn⟩
    rw [if_pos hlow, hpiece]
    simp only [List.cons_append, List.nil_append]
    rw [pieces?, unit?_low hlow]
  · have hpiece : Piece.ofChar c = .char c := if_neg fun h => hlow h.1
    rw [if_neg hlow, hpiece, List.cons_append, List.nil_append, pieces?.eq_def]
    split
    · next heq => cases heq
    · next heq => exact absurd (List.cons.inj heq).1 hquote
    · next heq => exact absurd (List.cons.inj heq).1 hslash
    · next heq => exact absurd (List.cons.inj heq).1 hslash
    · next heq =>
      cases heq
      exact if_neg hlow

private theorem pieces?_flatMap (cs rest : List Char) (acc : List Piece) :
    pieces? (cs.flatMap escapeChar ++ '"' :: rest) acc = some (acc.reverse ++ cs.map Piece.ofChar, rest) := by
  induction cs generalizing acc with
  | nil =>
    rw [List.map_nil, List.append_nil]
    rfl
  | cons c cs ih =>
    rw [List.flatMap_cons, List.append_assoc, pieces?_escapeChar, ih, List.reverse_cons, List.append_assoc]
    rfl

private theorem assemble?_unit {n : Nat} (h : n < 0xd800) (rest : List Piece) (acc : List Char) :
    assemble? (.unit n :: rest) acc = assemble? rest (Char.ofNat n :: acc) := by
  have hlow : ¬(0xd800 ≤ n ∧ n < 0xdc00) := by omega
  have hhigh : ¬(0xdc00 ≤ n ∧ n < 0xe000) := by omega
  rw [assemble?.eq_def]
  rcases rest with _ | ⟨_ | m, rest⟩
  · exact if_neg (by omega)
  · exact if_neg (by omega)
  · exact (if_neg hlow).trans (if_neg hhigh)

private theorem assemble?_map_ofChar (cs acc : List Char) :
    assemble? (cs.map Piece.ofChar) acc = some (String.ofList (acc.reverse ++ cs)) := by
  induction cs generalizing acc with
  | nil =>
    rw [List.append_nil]
    rfl
  | cons c cs ih =>
    have hstep : assemble? (Piece.ofChar c :: cs.map Piece.ofChar) acc =
        assemble? (cs.map Piece.ofChar) (c :: acc) := by
      rw [Piece.ofChar]
      split
      · next h =>
        have hlow := h.1
        rw [assemble?_unit (by omega), Char.ofNat_toNat]
      · rfl
    rw [List.map_cons, hstep, ih, List.reverse_cons, List.append_assoc]
    rfl

theorem string?_quote (s : String) (rest : List Char) :
    string? (s.toList.flatMap escapeChar ++ '"' :: rest) = some (some s, rest) := by
  rw [string?, pieces?_flatMap]
  show some (assemble? (s.toList.map Piece.ofChar) [], rest) = _
  rw [assemble?_map_ofChar]
  simp

theorem toList_quote (s : String) (rest : List Char) :
    (quote s).toList ++ rest = '"' :: (s.toList.flatMap escapeChar ++ '"' :: rest) := by
  simp [quote]

end Json

end MergedMining
