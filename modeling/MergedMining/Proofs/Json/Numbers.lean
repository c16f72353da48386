import MergedMining.Json.Document
import MergedMining.Json.Printer
import MergedMining.Proofs.Decimal.Shortest

/-!
# Numbers are read as they are written

A whole number of 64 bits is read as itself (`number?_int`).  A finite double is written in one of four forms,
and each of them is read as a significand with a power of ten (`exists_number?_float`), whose value may be
another double.
-/

namespace MergedMining

namespace Json

/-- A text that may follow a value. -/
def Ends (rest : List Char) : Prop := ∀ c ∈ rest.head?, c = ',' ∨ c = ']' ∨ c = '\x7d'

/-- A text that does not go on with a digit. -/
def Stops (rest : List Char) : Prop := ∀ c ∈ rest.head?, c.isDigit = false

theorem ends_nil : Ends [] := nofun

theorem ends_cons {c : Char} (h : c = ',' ∨ c = ']' ∨ c = '\x7d') (rest : List Char) : Ends (c :: rest) := by
  intro d hd
  obtain rfl := Option.some.inj hd
  exact h

theorem stops_cons {c : Char} (h : c.isDigit = false) (rest : List Char) : Stops (c :: rest) := by
  intro d hd
  obtain rfl := Option.some.inj hd
  exact h

variable {ds rest : List Char} {negative : Bool}

theorem Ends.stops (h : Ends rest) : Stops rest := by
  intro c hc
  rcases h c hc with rfl | rfl | rfl <;> rfl

/-! ### Runs of digits -/

theorem isDigit_eq (c : Char) : isDigit c = c.isDigit := by
  simp only [isDigit, Char.isDigit, Char.le_def]
  rw [Bool.decide_and]

private theorem le_ofDigitChars (ds : List Char) (s : Nat) : s ≤ Nat.ofDigitChars 10 ds s := by
  rw [Nat.ofDigitChars_eq_ofDigitChars_zero]
  have hpow : 0 < 10 ^ ds.length := Nat.pow_pos (by decide)
  have hmul : s ≤ 10 ^ ds.length * s := Nat.le_mul_of_pos_left _ hpow
  omega

theorem ofDigitChars_lt (hds : ∀ c ∈ ds, c.isDigit = true) (s : Nat) :
    Nat.ofDigitChars 10 ds s < (s + 1) * 10 ^ ds.length := by
  induction ds generalizing s with
  | nil => simp
  | cons c ds ih =>
    have hc := hds c List.mem_cons_self
    rw [Nat.ofDigitChars_cons, List.length_cons, Nat.pow_succ']
    refine (ih (fun d hd => hds d (List.mem_cons_of_mem _ hd)) _).trans_le ?_
    rw [← Nat.mul_assoc]
    refine Nat.mul_le_mul_right _ ?_
    have h9 : c.toNat ≤ 57 := by
      simp only [Char.isDigit, Bool.and_eq_true, decide_eq_true_eq] at hc
      exact hc.2
    have h0 : ('0' : Char).toNat = 48 := rfl
    omega

theorem digitRun_append (hds : ∀ c ∈ ds, c.isDigit = true) (hrest : Stops rest) (value count : Nat) :
    Decimal.digitRun value count (ds ++ rest) = (Nat.ofDigitChars 10 ds value, count + ds.length, rest) := by
  induction ds generalizing value count with
  | nil =>
    rcases rest with _ | ⟨c, cs⟩
    · rfl
    · have hc : ¬ ('0' ≤ c ∧ c ≤ '9') := by
        have hstop := hrest c rfl
        rw [← isDigit_eq] at hstop
        exact of_decide_eq_false hstop
      rw [List.nil_append, Decimal.digitRun, if_neg hc]
      rfl
  | cons c ds ih =>
    have hc : '0' ≤ c ∧ c ≤ '9' := by
      have hdigit := hds c List.mem_cons_self
      rw [← isDigit_eq] at hdigit
      exact of_decide_eq_true hdigit
    rw [List.cons_append, Decimal.digitRun, if_pos hc, ih (fun d hd => hds d (List.mem_cons_of_mem _ hd)),
      Nat.ofDigitChars_cons, List.length_cons, Nat.mul_comm value 10, Nat.add_assoc, Nat.add_comm 1]

theorem significand_append {s : Nat} (hds : ∀ c ∈ ds, c.isDigit = true) (hrest : Stops rest)
    (hlt : Nat.ofDigitChars 10 ds s < 2 ^ 64) :
    significand s (ds ++ rest) = (Nat.ofDigitChars 10 ds s, 0, rest) := by
  induction ds generalizing s with
  | nil =>
    rcases rest with _ | ⟨c, cs⟩
    · rfl
    · have hc : isDigit c = false := by
        rw [isDigit_eq]
        exact hrest c rfl
      rw [List.nil_append, significand, hc]
      rfl
  | cons c ds ih =>
    have hc : isDigit c = true := by
      rw [isDigit_eq]
      exact hds c List.mem_cons_self
    rw [Nat.ofDigitChars_cons, Nat.mul_comm 10] at hlt
    have hfits : s * 10 + (c.toNat - '0'.toNat) < UInt64.size := (le_ofDigitChars ds _).trans_lt hlt
    rw [List.cons_append, significand, if_pos hc, if_pos hfits, Nat.ofDigitChars_cons, Nat.mul_comm 10]
    exact ih (fun d hd => hds d (List.mem_cons_of_mem _ hd)) hlt

private theorem length_takeWhile (hds : ∀ c ∈ ds, c.isDigit = true) (hrest : Stops rest) :
    ((ds ++ rest).takeWhile isDigit).length = ds.length := by
  have hall : ∀ c ∈ ds, isDigit c = true := fun c hc => (isDigit_eq c).trans (hds c hc)
  rw [List.takeWhile_append_of_pos hall]
  rcases rest with _ | ⟨c, cs⟩
  · simp
  · have hc : ¬ isDigit c = true := by
      rw [isDigit_eq, hrest c rfl]
      nofun
    rw [List.takeWhile_cons_of_neg hc, List.append_nil]

theorem fraction_append {s : Nat} (hds : ∀ c ∈ ds, c.isDigit = true) (hrest : Stops rest)
    (hlt : Nat.ofDigitChars 10 ds s < 2 ^ 64) :
    fraction s (ds ++ rest) = (Nat.ofDigitChars 10 ds s, ds.length, rest) := by
  unfold fraction
  dsimp only
  rw [significand_append hds hrest hlt, length_takeWhile hds hrest]
  rfl

/-! ### The tail of a number -/

theorem numberTail?_of_ends (negative : Bool) (s : Nat) (hrest : Ends rest) :
    numberTail? negative s 0 rest = some (some (wholeNumber negative s), rest) := by
  rcases rest with _ | ⟨c, cs⟩
  · rfl
  · rcases hrest c rfl with rfl | rfl | rfl <;> rfl

/-- The sign of an exponent. -/
def exponentSign (negative : Bool) : Char := if negative then '-' else '+'

theorem exponentPart?_append (negative : Bool) (n : Nat) (hrest : Stops rest) :
    exponentPart? (exponentSign negative :: Nat.toDigits 10 n ++ rest) =
      some (if negative then -(n : Int) else n, rest) := by
  have hds : ∀ c ∈ Nat.toDigits 10 n, c.isDigit = true :=
    fun c hc => Nat.isDigit_of_mem_toDigits (by decide) (by decide) hc
  have hrun := digitRun_append hds hrest 0 0
  rw [Nat.ofDigitChars_ten_toDigits, Nat.zero_add] at hrun
  obtain ⟨k, hk⟩ : ∃ k, (Nat.toDigits 10 n).length = k + 1 :=
    ⟨(Nat.toDigits 10 n).length - 1, by have := Nat.length_toDigits_pos (b := 10) (n := n); omega⟩
  rw [hk] at hrun
  rw [List.cons_append]
  cases negative with
  | true =>
    unfold exponentPart?
    simp only [exponentSign, if_true, hrun]
  | false =>
    unfold exponentPart?
    simp only [exponentSign, Bool.false_eq_true, if_false, hrun]

theorem numberTail?_exponent (negative : Bool) (s : Nat) (down : Bool) (n : Nat) (hrest : Stops rest) :
    numberTail? negative s 0 ('e' :: exponentSign down :: Nat.toDigits 10 n ++ rest) =
      some (scaled? negative s (if down then -(n : Int) else n), rest) := by
  show (exponentPart? (exponentSign down :: Nat.toDigits 10 n ++ rest)).map _ = _
  rw [exponentPart?_append down n hrest]
  simp

private theorem numberTail?_point_eq {c : Char} (hc : c.isDigit = true) (negative : Bool) (s : Nat)
    (tail : List Char) :
    numberTail? negative s 0 ('.' :: c :: tail) =
      let (s, places, rest) := fraction s (c :: tail)
      match rest with
      | 'e' :: rest => (exponentPart? rest).map fun (e, rest) => (scaled? negative s ((0 : Nat) - places + e), rest)
      | 'E' :: rest => (exponentPart? rest).map fun (e, rest) => (scaled? negative s ((0 : Nat) - places + e), rest)
      | _ => some (scaled? negative s ((0 : Nat) - places), rest) := by
  have hc' : isDigit c = true := (isDigit_eq c).trans hc
  exact if_pos hc'

theorem numberTail?_point (negative : Bool) {c : Char} {s : Nat} (hds : ∀ d ∈ c :: ds, d.isDigit = true)
    (hrest : Ends rest) (hlt : Nat.ofDigitChars 10 (c :: ds) s < 2 ^ 64) :
    numberTail? negative s 0 ('.' :: (c :: ds) ++ rest) =
      some (scaled? negative (Nat.ofDigitChars 10 (c :: ds) s) (-((c :: ds).length : Int)), rest) := by
  have hfraction := fraction_append hds hrest.stops hlt
  rw [List.cons_append] at hfraction ⊢
  rw [List.cons_append, numberTail?_point_eq (hds c List.mem_cons_self), hfraction]
  dsimp only
  rw [show ((0 : Nat) : Int) - (c :: ds).length = -((c :: ds).length : Int) by omega]
  rcases rest with _ | ⟨c, cs⟩
  · rfl
  · rcases hrest c rfl with rfl | rfl | rfl <;> rfl

theorem numberTail?_point_exponent (negative : Bool) {c : Char} {s : Nat} (hds : ∀ d ∈ c :: ds, d.isDigit = true)
    (hrest : Stops rest) (down : Bool) (n : Nat) (hlt : Nat.ofDigitChars 10 (c :: ds) s < 2 ^ 64) :
    numberTail? negative s 0 ('.' :: (c :: ds) ++ 'e' :: exponentSign down :: Nat.toDigits 10 n ++ rest) =
      some (scaled? negative (Nat.ofDigitChars 10 (c :: ds) s)
        (-((c :: ds).length : Int) + if down then -(n : Int) else n), rest) := by
  have hstops : Stops ('e' :: exponentSign down :: Nat.toDigits 10 n ++ rest) := stops_cons rfl _
  have hfraction := fraction_append hds hstops hlt
  rw [List.append_assoc]
  rw [List.cons_append] at hfraction ⊢
  rw [List.cons_append, numberTail?_point_eq (hds c List.mem_cons_self), hfraction]
  show (exponentPart? (exponentSign down :: Nat.toDigits 10 n ++ rest)).map _ = _
  rw [exponentPart?_append down n hrest]
  simp

/-! ### Whole numbers -/

theorem unsigned?_zero (negative : Bool) (hrest : Stops rest) :
    unsigned? negative ('0' :: rest) = numberTail? negative 0 0 rest := by
  rcases rest with _ | ⟨c, cs⟩
  · rfl
  · have hc : ¬ isDigit c = true := by
      rw [isDigit_eq, hrest c rfl]
      nofun
    exact if_neg hc

theorem unsigned?_digits {c : Char} (hds : ∀ d ∈ c :: ds, d.isDigit = true) (hc : c ≠ '0') (hrest : Stops rest)
    (hlt : Nat.ofDigitChars 10 (c :: ds) 0 < 2 ^ 64) :
    unsigned? negative (c :: ds ++ rest) = numberTail? negative (Nat.ofDigitChars 10 (c :: ds) 0) 0 rest := by
  have hdigit : isDigit c = true := (isDigit_eq c).trans (hds c List.mem_cons_self)
  have hsignificand := significand_append hds hrest hlt
  rw [List.cons_append] at hsignificand ⊢
  have hstep : unsigned? negative (c :: (ds ++ rest)) = if isDigit c then
      let (s, dropped, rest) := significand 0 (c :: (ds ++ rest))
      numberTail? negative s dropped rest
    else none := by
    unfold unsigned?
    split
    · next heq => exact absurd (List.cons.inj heq).1 hc
    · next heq => exact absurd (List.cons.inj heq).1 hc
    · next heq => cases heq; rfl
    · next heq => cases heq
  rw [hstep, if_pos hdigit, hsignificand]

theorem unsigned?_toDigits {n : Nat} (h : n < 2 ^ 64) (hrest : Ends rest) :
    unsigned? negative (Nat.toDigits 10 n ++ rest) = some (some (wholeNumber negative n), rest) := by
  by_cases hn : n = 0
  · subst hn
    exact (unsigned?_zero negative hrest.stops).trans (numberTail?_of_ends negative 0 hrest)
  · obtain ⟨c, ds, heq, hc⟩ := Decimal.exists_toDigits_eq_cons (Nat.pos_of_ne_zero hn)
    have hvalue : Nat.ofDigitChars 10 (c :: ds) 0 = n := by rw [← heq, Nat.ofDigitChars_ten_toDigits]
    have hds : ∀ d ∈ c :: ds, d.isDigit = true := by
      rw [← heq]
      exact fun d hd => Nat.isDigit_of_mem_toDigits (by decide) (by decide) hd
    rw [heq, unsigned?_digits hds hc hrest.stops (by rw [hvalue]; exact h), hvalue,
      numberTail?_of_ends negative n hrest]

/-- What does not begin with a minus sign is read as an unsigned number. -/
theorem number?_of_head {cs : List Char} (h : ∀ c ∈ cs.head?, c ≠ '-') : number? cs = unsigned? false cs := by
  unfold number?
  split
  · next heq => exact absurd rfl (h '-' rfl)
  · rfl

/-- A whole number of 64 bits, signed or unsigned. -/
def InRange (n : Int) : Prop := -2 ^ 63 ≤ n ∧ n < 2 ^ 64

private theorem number?_toDigits (n : Nat) (rest : List Char) :
    number? (Nat.toDigits 10 n ++ rest) = unsigned? false (Nat.toDigits 10 n ++ rest) := by
  refine number?_of_head fun c hc heq => ?_
  rw [List.head?_append_of_ne_nil _ Nat.toDigits_ne_nil] at hc
  have hdigit := Nat.isDigit_of_mem_toDigits (by decide) (by decide) (List.mem_of_mem_head? hc)
  rw [heq] at hdigit
  cases hdigit

theorem number?_int {n : Int} (h : InRange n) (hrest : Ends rest) :
    number? ((toString n).toList ++ rest) = some (some (.int n), rest) := by
  obtain ⟨hlow, hhigh⟩ := h
  rw [Int.toString_eq_repr, Int.repr_eq_if]
  split
  · next hpos =>
    obtain ⟨k, rfl⟩ := Int.eq_ofNat_of_zero_le hpos
    rw [Int.toNat_natCast, Nat.toList_repr, number?_toDigits, unsigned?_toDigits (by omega) hrest]
    rfl
  · next hneg =>
    obtain ⟨k, hk⟩ := Int.eq_ofNat_of_zero_le (show 0 ≤ -n by omega)
    have hwhole : wholeNumber true k = .int n := by
      rw [wholeNumber, if_pos rfl, if_neg (by omega)]
      congr 1
      omega
    rw [hk, Int.toNat_natCast, String.toList_append, Nat.toList_repr]
    show unsigned? true (Nat.toDigits 10 k ++ rest) = _
    rw [unsigned?_toDigits (by omega) hrest, hwhole]

/-! ### Doubles -/

private theorem ofDigitChars_lt_of_length {n : Nat} (hds : ∀ c ∈ ds, c.isDigit = true) (hn : ds.length ≤ n) :
    Nat.ofDigitChars 10 ds 0 < 10 ^ n := by
  refine (ofDigitChars_lt hds 0).trans_le ?_
  rw [Nat.zero_add, Nat.one_mul]
  exact Nat.pow_le_pow_right (by decide) hn

/-- A double below one. -/
private theorem unsigned?_small (hds : ∀ d ∈ ds, d.isDigit = true) (hne : ds ≠ []) (hlength : ds.length ≤ 18)
    (zeros : Nat) (hrest : Ends rest) : unsigned? negative ('0' :: '.' :: (List.replicate zeros '0' ++ ds) ++ rest) =
      some (scaled? negative (Nat.ofDigitChars 10 ds 0) (-((zeros + ds.length : Nat) : Int)), rest) := by
  have hvalue : Nat.ofDigitChars 10 (List.replicate zeros '0' ++ ds) 0 = Nat.ofDigitChars 10 ds 0 := by
    rw [Nat.ofDigitChars_append, Nat.ofDigitChars_replicate_zero, Nat.mul_zero]
  have hall : ∀ d ∈ List.replicate zeros '0' ++ ds, d.isDigit = true := by
    intro d hd
    rcases List.mem_append.1 hd with hd | hd
    · rw [List.eq_of_mem_replicate hd]
      rfl
    · exact hds d hd
  have hlt := ofDigitChars_lt_of_length hds hlength
  obtain ⟨c, cs, heq⟩ :=
    List.exists_cons_of_ne_nil (List.append_ne_nil_of_right_ne_nil (List.replicate zeros '0') hne)
  have hlen : (c :: cs).length = zeros + ds.length := by rw [← heq, List.length_append, List.length_replicate]
  rw [heq] at hall hvalue ⊢
  have hpoint := numberTail?_point negative hall hrest (s := 0) (by omega)
  rw [hvalue, hlen] at hpoint
  exact (unsigned?_zero _ (stops_cons rfl _)).trans hpoint

/-- A whole double, with a zero behind the point. -/
private theorem unsigned?_whole {c : Char} (hds : ∀ d ∈ c :: ds, d.isDigit = true) (hc : c ≠ '0')
    (hlength : (c :: ds).length ≤ 17) (hrest : Ends rest) : unsigned? negative (c :: ds ++ '.' :: '0' :: rest) =
      some (scaled? negative (Nat.ofDigitChars 10 (c :: ds) 0 * 10) (-1), rest) := by
  have hlt := ofDigitChars_lt_of_length hds hlength
  have hvalue : Nat.ofDigitChars 10 ['0'] (Nat.ofDigitChars 10 (c :: ds) 0) =
      Nat.ofDigitChars 10 (c :: ds) 0 * 10 := by
    rw [Nat.ofDigitChars_cons, Nat.ofDigitChars_nil, Nat.sub_self, Nat.mul_comm]
    rfl
  have hzero : ∀ d ∈ ['0'], d.isDigit = true := by
    intro d hd
    rw [List.mem_singleton.1 hd]
    rfl
  rw [unsigned?_digits hds hc (stops_cons rfl _) (by omega)]
  have hpoint := numberTail?_point negative (s := Nat.ofDigitChars 10 (c :: ds) 0) hzero hrest
    (by rw [hvalue]; omega)
  rw [hvalue] at hpoint
  exact hpoint

/-- A double with digits on both sides of the point. -/
private theorem unsigned?_mixed (negative : Bool) {c d : Char} {ds' : List Char}
    (hds : ∀ x ∈ c :: ds, x.isDigit = true) (hc : c ≠ '0') (hds' : ∀ x ∈ d :: ds', x.isDigit = true)
    (hlength : (c :: ds).length + (d :: ds').length ≤ 18) (hrest : Ends rest) :
    unsigned? negative (c :: ds ++ '.' :: (d :: ds') ++ rest) =
      some (scaled? negative (Nat.ofDigitChars 10 (c :: ds ++ d :: ds') 0) (-((d :: ds').length : Int)), rest) := by
  have hall : ∀ x ∈ c :: ds ++ d :: ds', x.isDigit = true := fun x hx => (List.mem_append.1 hx).elim (hds x) (hds' x)
  have hlt := ofDigitChars_lt_of_length hall (n := 18) (by rwa [List.length_append])
  have hlt' := ofDigitChars_lt_of_length hds (n := 18) (by omega)
  rw [Nat.ofDigitChars_append] at hlt ⊢
  rw [List.append_assoc]
  exact (unsigned?_digits hds hc (stops_cons rfl _) (by omega)).trans
    (numberTail?_point negative hds' hrest (by omega))

/-- A double with an exponent. -/
private theorem unsigned?_exponent (negative : Bool) {c : Char} (hds : ∀ x ∈ c :: ds, x.isDigit = true) (hc : c ≠ '0')
    (hlength : (c :: ds).length ≤ 18) (down : Bool) (n : Nat) (hrest : Ends rest) :
    unsigned? negative (c :: (if ds = [] then [] else '.' :: ds) ++
        'e' :: exponentSign down :: Nat.toDigits 10 n ++ rest) =
      some (scaled? negative (Nat.ofDigitChars 10 (c :: ds) 0)
        (-(ds.length : Int) + if down then -(n : Int) else n), rest) := by
  have hlt := ofDigitChars_lt_of_length hds hlength
  have hfirst : ∀ x ∈ [c], x.isDigit = true := fun x hx => hds x (List.mem_singleton.1 hx ▸ List.mem_cons_self)
  have hlt' := ofDigitChars_lt_of_length hfirst (n := 18) (by simp)
  rcases ds with _ | ⟨d, ds⟩
  · rw [if_pos rfl]
    have htail := numberTail?_exponent negative (Nat.ofDigitChars 10 [c] 0) down n hrest.stops
    rw [List.length_nil, Int.ofNat_zero, Int.neg_zero, Int.zero_add, ← htail]
    exact unsigned?_digits hfirst hc (stops_cons rfl _) (by omega)
  · rw [if_neg (List.cons_ne_nil _ _)]
    have hds' : ∀ x ∈ d :: ds, x.isDigit = true := fun x hx => hds x (List.mem_cons_of_mem _ hx)
    have hvalue : Nat.ofDigitChars 10 (d :: ds) (Nat.ofDigitChars 10 [c] 0) =
        Nat.ofDigitChars 10 (c :: d :: ds) 0 := by
      rw [← Nat.ofDigitChars_append, List.singleton_append]
    have htail := numberTail?_point_exponent negative (s := Nat.ofDigitChars 10 [c] 0) hds' hrest.stops down n
      (by rw [hvalue]; omega)
    rw [hvalue] at htail
    rw [← htail]
    exact unsigned?_digits hfirst hc (stops_cons rfl _) (by omega)

private theorem toList_digits_of_exponent {c : Char} {point : Int}
    (h : ¬ Decimal.Layout.json.positional point = true) :
    (Decimal.Layout.json.digits ⟨c :: ds, point⟩).toList = c :: (if ds = [] then [] else '.' :: ds) ++
      'e' :: exponentSign (decide (point - 1 < 0)) :: Nat.toDigits 10 (point - 1).natAbs := by
  unfold Decimal.Layout.digits
  dsimp only
  rw [if_neg h]
  by_cases hdown : point - 1 < 0
  · rcases ds with _ | ⟨d, ds⟩
    · simp [hdown, exponentSign]
    · simp [hdown, exponentSign]
  · rcases ds with _ | ⟨d, ds⟩
    · simp [hdown, exponentSign]
    · simp [hdown, exponentSign]

/-- Digits in front of the point, with zeros behind them. -/
private theorem exists_unsigned?_whole {c : Char} (hds : ∀ d ∈ c :: ds, d.isDigit = true) (hc : c ≠ '0') {count : Nat}
    (hcount : (c :: ds).length + count ≤ 17) :
    ∃ s : Nat, s < 10 ^ 18 ∧ ∀ (negative : Bool) (rest : List Char), Ends rest →
      unsigned? negative (c :: (ds ++ List.replicate count '0') ++ '.' :: '0' :: rest) =
        some (scaled? negative s (-1), rest) := by
  have hall : ∀ x ∈ c :: (ds ++ List.replicate count '0'), x.isDigit = true := by
    intro x hx
    rcases List.mem_append.1 (List.cons_append ▸ hx) with hx | hx
    · exact hds x hx
    · rw [List.eq_of_mem_replicate hx]
      rfl
  have hlen : (c :: (ds ++ List.replicate count '0')).length ≤ 17 := by
    simp only [List.length_cons, List.length_append, List.length_replicate] at hcount ⊢
    omega
  obtain ⟨front, hfront⟩ : ∃ front, front = Nat.ofDigitChars 10 (c :: (ds ++ List.replicate count '0')) 0 := ⟨_, rfl⟩
  have hlt : front < 10 ^ 17 := hfront ▸ ofDigitChars_lt_of_length hall hlen
  refine ⟨front * 10, by omega, fun negative rest hrest => ?_⟩
  rw [hfront]
  exact unsigned?_whole hall hc hlen hrest

/-- Digits with the point between them. -/
private theorem unsigned?_split (negative : Bool) {c : Char} (hds : ∀ d ∈ c :: ds, d.isDigit = true) (hc : c ≠ '0')
    (hlength : (c :: ds).length ≤ 18) {k : Nat} (hk : k < ds.length) (hrest : Ends rest) :
    unsigned? negative (c :: ds.take k ++ '.' :: ds.drop k ++ rest) =
      some (scaled? negative (Nat.ofDigitChars 10 (c :: ds) 0) (-((ds.drop k).length : Int)), rest) := by
  have hback : ds.drop k ≠ [] := by
    rw [Ne, List.drop_eq_nil_iff, Nat.not_le]
    exact hk
  have hsplit : c :: ds.take k ++ ds.drop k = c :: ds := by rw [List.cons_append, List.take_append_drop]
  have hlen := congrArg List.length hsplit
  rw [List.length_append] at hlen
  obtain ⟨d, ds', heq⟩ := List.exists_cons_of_ne_nil hback
  rw [heq] at hsplit hlen ⊢
  have hfront : ∀ x ∈ c :: ds.take k, x.isDigit = true := fun x hx => hds x (hsplit ▸ List.mem_append_left _ hx)
  have hbehind : ∀ x ∈ d :: ds', x.isDigit = true := fun x hx => hds x (hsplit ▸ List.mem_append_right _ hx)
  have hread := unsigned?_mixed negative hfront hc hbehind (by omega) hrest
  rwa [hsplit] at hread

/-- What is written of a positive double is read as a significand with a power of ten that is not above the point. -/
theorem exists_unsigned?_digits {d : Decimal.Digits} (h : d.Proper) : ∃ (s : Nat) (e : Int), s < 10 ^ 18 ∧
    (e ≤ 0 ∨ e ≤ d.point) ∧ ∀ (negative : Bool) (rest : List Char), Ends rest →
      unsigned? negative ((Decimal.Layout.json.digits d).toList ++ rest) = some (scaled? negative s e, rest) := by
  obtain ⟨hdigits, ⟨c, ds, hcons, hc⟩, hlength⟩ := h
  rcases d with ⟨digits, point⟩
  dsimp only at hdigits hcons hlength ⊢
  subst hcons
  by_cases hpositional : Decimal.Layout.json.positional point = true
  · unfold Decimal.Layout.digits
    dsimp only
    rw [if_pos hpositional]
    have hmost : point ≤ 16 := by
      have hboth : (decide (-5 < point) && decide (point ≤ 16)) = true := hpositional
      exact of_decide_eq_true (Bool.and_eq_true_iff.1 hboth).2
    split
    · next hpoint =>
      -- zeros in front of all digits
      refine ⟨_, -(((-point).toNat + (c :: ds).length : Nat) : Int), ofDigitChars_lt_of_length hdigits hlength,
        .inl (by omega), fun negative rest hrest => ?_⟩
      simp only [String.toList_append, String.toList_ofList]
      exact unsigned?_small hdigits (List.cons_ne_nil _ _) hlength (-point).toNat hrest
    · next hpoint =>
      split
      · next hwhole =>
        obtain ⟨s, hs, hread⟩ := exists_unsigned?_whole hdigits hc
          (show (c :: ds).length + (point.toNat - (c :: ds).length) ≤ 17 by omega)
        refine ⟨s, -1, hs, .inl (by decide), fun negative rest hrest => ?_⟩
        rw [String.toList_append, String.toList_ofList, List.append_assoc]
        exact hread negative rest hrest
      · next hpart =>
        obtain ⟨k, hk⟩ : ∃ k, point.toNat = k + 1 := ⟨point.toNat - 1, by omega⟩
        rw [List.length_cons] at hpart
        refine ⟨_, -((ds.drop k).length : Int), ofDigitChars_lt_of_length hdigits hlength, .inl (by omega),
          fun negative rest hrest => ?_⟩
        rw [String.toList_ofList, hk, List.take_succ_cons, List.drop_succ_cons]
        exact unsigned?_split negative hdigits hc hlength (by omega) hrest
  · refine ⟨_, -(ds.length : Int) + (point - 1), ofDigitChars_lt_of_length hdigits hlength, .inr (by omega),
      fun negative rest hrest => ?_⟩
    have hread := unsigned?_exponent negative hdigits hc hlength (decide (point - 1 < 0)) (point - 1).natAbs hrest
    rw [toList_digits_of_exponent hpositional]
    by_cases hdown : point - 1 < 0
    · rw [decide_eq_true hdown, if_pos rfl, show -((point - 1).natAbs : Int) = point - 1 by omega] at hread
      rw [decide_eq_true hdown]
      exact hread
    · rw [decide_eq_false hdown, if_neg Bool.false_ne_true,
        show ((point - 1).natAbs : Int) = point - 1 by omega] at hread
      rw [decide_eq_false hdown]
      exact hread

private theorem number?_signed {text : List Char} {s : Nat} {e : Int}
    (h : ∀ (negative : Bool) (rest : List Char), Ends rest →
      unsigned? negative (text ++ rest) = some (scaled? negative s e, rest)) (hrest : Ends rest) :
    number? ((if negative then '-' :: text else text) ++ rest) = some (scaled? negative s e, rest) := by
  cases negative with
  | true => exact h true rest hrest
  | false =>
    have hread := h false rest hrest
    rw [if_neg Bool.false_ne_true, number?_of_head, hread]
    -- what begins with a minus sign is no unsigned number
    intro c hc heq
    obtain ⟨cs, hcs⟩ : ∃ cs, text ++ rest = c :: cs := by
      rcases hcase : text ++ rest with _ | ⟨d, cs⟩
      · rw [hcase] at hc
        cases hc
      · rw [hcase] at hc
        obtain rfl := Option.some.inj hc
        exact ⟨cs, rfl⟩
    subst heq
    rw [hcs] at hread
    cases hread

/-- A finite double is read as a significand with a power of ten that is not far above its magnitude. -/
theorem exists_number?_float {x : Float} {p : Binary64.Parts} (h : Binary64.parts x = some p) :
    ∃ (s : Nat) (e : Int), s < 10 ^ 18 ∧
      (e ≤ 0 ∨ e ≤ Decimal.magnitude (Decimal.Interval.ofParts p).value (Decimal.Interval.ofParts p).den + 18) ∧
      ∀ rest, Ends rest → number? ((renderFloat x).toList ++ rest) = some (scaled? p.negative s e, rest) := by
  obtain ⟨text, s, e, htext, hs, he, hread⟩ : ∃ (text : String) (s : Nat) (e : Int),
      text = (if p.mantissa = 0 then "0" ++ Decimal.Layout.json.wholeSuffix
        else Decimal.Layout.json.digits (Decimal.shortest p)) ∧ s < 10 ^ 18 ∧
      (e ≤ 0 ∨ e ≤ Decimal.magnitude (Decimal.Interval.ofParts p).value (Decimal.Interval.ofParts p).den + 18) ∧
      ∀ (negative : Bool) (rest : List Char), Ends rest →
        unsigned? negative (text.toList ++ rest) = some (scaled? negative s e, rest) := by
    by_cases hzero : p.mantissa = 0
    · refine ⟨"0.0", 0, -1, (if_pos hzero).symm, by decide, .inl (by decide), fun negative rest hrest => ?_⟩
      have hdigit : ∀ c ∈ ['0'], c.isDigit = true := List.forall_mem_singleton.2 rfl
      exact unsigned?_small hdigit (List.cons_ne_nil _ _) (by decide) 0 hrest
    · obtain ⟨hproper, hpoint⟩ := Decimal.proper_shortest (Binary64.fits_of_partsOfBits h hzero)
      obtain ⟨s, e, hs, he, hread⟩ := exists_unsigned?_digits hproper
      exact ⟨_, s, e, (if_neg hzero).symm, hs, he.imp_right (·.trans hpoint), hread⟩
  refine ⟨s, e, hs, he, fun rest hrest => ?_⟩
  have hrender : (renderFloat x).toList = if p.negative then '-' :: text.toList else text.toList := by
    unfold renderFloat Decimal.Layout.finite?
    rw [h, Option.map_some, Option.getD_some, ← htext]
    cases p.negative with
    | true => exact String.toList_append
    | false => rfl
  rw [hrender]
  exact number?_signed hread hrest

/-- A double that is no finite number is written as null. -/
theorem renderFloat_of_none {x : Float} (h : Binary64.parts x = none) : renderFloat x = "null" := by
  unfold renderFloat Decimal.Layout.finite?
  rw [h]
  rfl

end Json

end MergedMining
