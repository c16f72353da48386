import Mathlib.Algebra.Group.Nat.Even
import Mathlib.Data.List.TakeWhile
import Mathlib.Order.Monotone.Basic
import MergedMining.Timestamp

/-!
# Points in time are read as they are written

`dateOfDays` and `daysOfDate` are inverse to each other, and the text of every point in time that can be told is
read as this point in time (`parse?_toText`).
-/

namespace MergedMining

namespace Timestamp

/-! ### Calendar -/

/-- The day of an era of four hundred years on which one of its years begins. -/
private def yearStart (year : Nat) : Nat := 365 * year + year / 4 - year / 100 + year / 400

/-- The year of an era in which one of its days lies. -/
private def yearOfEra (day : Nat) : Nat := (day - day / 1460 + day / 36524 - day / 146096) / 365

private theorem monotone_yearOfEra : Monotone yearOfEra := by
  refine monotone_nat_of_le_succ fun n => ?_
  unfold yearOfEra
  omega

private theorem exists_yearStart_le {n day : Nat} (h : day < yearStart n) :
    ∃ year < n, yearStart year ≤ day ∧ day < yearStart (year + 1) := by
  induction n with
  | zero => exact absurd h (Nat.not_lt_zero _)
  | succ n ih =>
    by_cases hlt : day < yearStart n
    · obtain ⟨year, hyear, hday⟩ := ih hlt
      exact ⟨year, by omega, hday⟩
    · exact ⟨n, by omega, by omega, h⟩

private theorem yearOfEra_bounds {day : Nat} (h : day < 146097) :
    yearOfEra day < 400 ∧ yearStart (yearOfEra day) ≤ day ∧ day < yearStart (yearOfEra day + 1) := by
  obtain ⟨year, hyear, hlow, hhigh⟩ := exists_yearStart_le (show day < yearStart 400 from h)
  -- the first and the last day of every year lie in this year, hence all days between them
  have hends : ∀ year < 400, yearOfEra (yearStart year) = year ∧ yearOfEra (yearStart (year + 1) - 1) = year := by
    decide +kernel
  obtain ⟨hfirst, hlast⟩ := hends year hyear
  have hle := monotone_yearOfEra hlow
  have hge := monotone_yearOfEra (show day ≤ yearStart (year + 1) - 1 by omega)
  have heq : yearOfEra day = year := by omega
  rw [heq]
  exact ⟨hyear, hlow, hhigh⟩

/-- A year of an era that begins with March has 365 days, or 366 when the leap day at its end is there. -/
private theorem yearStart_succ {year : Nat} (h : year < 400) :
    yearStart (year + 1) ≤ yearStart year + 366 ∧
      (yearStart (year + 1) = yearStart year + 366 → isLeap (year + 1 : Nat) = true) := by
  have hall : ∀ year < 400, yearStart (year + 1) ≤ yearStart year + 366 ∧
      (yearStart (year + 1) = yearStart year + 366 → isLeap (year + 1 : Nat) = true) := by
    decide +kernel
  exact hall year h

private theorem isLeap_add_era (year era : Int) : isLeap (year + era * 400) = isLeap year := by
  unfold isLeap
  rw [show (year + era * 400) % 4 = year % 4 by omega, show (year + era * 400) % 100 = year % 100 by omega,
    show (year + era * 400) % 400 = year % 400 by omega]

/-- A date that there is. -/
structure IsDate (year : Int) (month day : Nat) : Prop where
  one_le_month : 1 ≤ month
  month_le : month ≤ 12
  one_le_day : 1 ≤ day
  day_le : day ≤ daysInMonth year month

/-- A day of a year that begins with March: its month, counted from March, and its day in the month. -/
private theorem shifted_bounds {dayOfYear : Nat} (h : dayOfYear < 366) :
    (5 * dayOfYear + 2) / 153 < 12 ∧ (153 * ((5 * dayOfYear + 2) / 153) + 2) / 5 ≤ dayOfYear ∧
      dayOfYear < (153 * ((5 * dayOfYear + 2) / 153 + 1) + 2) / 5 := by
  omega

private theorem le_daysInMonth {shifted day : Nat} {year : Int} (hshifted : shifted < 11)
    (hday : day + (153 * shifted + 2) / 5 ≤ (153 * (shifted + 1) + 2) / 5) :
    day ≤ daysInMonth year (if shifted < 10 then shifted + 3 else shifted - 9) := by
  have hcases : shifted = 0 ∨ shifted = 1 ∨ shifted = 2 ∨ shifted = 3 ∨ shifted = 4 ∨ shifted = 5 ∨ shifted = 6 ∨
      shifted = 7 ∨ shifted = 8 ∨ shifted = 9 ∨ shifted = 10 := by omega
  rcases hcases with rfl | rfl | rfl | rfl | rfl | rfl | rfl | rfl | rfl | rfl | rfl <;>
    simp [daysInMonth] at hday ⊢ <;> omega

private theorem dateOfDays_eq (era : Int) {day : Nat} (h : day < 146097) :
    dateOfDays (era * 146097 + day - 719468) =
      let year := yearOfEra day
      let dayOfYear := day - (365 * year + year / 4 - year / 100)
      let shifted := (5 * dayOfYear + 2) / 153
      let month := if shifted < 10 then shifted + 3 else shifted - 9
      (if month ≤ 2 then year + era * 400 + 1 else year + era * 400, month,
        dayOfYear - (153 * shifted + 2) / 5 + 1) := by
  have hera : Int.fdiv (era * 146097 + day - 719468 + 719468) 146097 = era := by
    rw [Int.fdiv_eq_ediv_of_nonneg _ (by decide)]
    omega
  have hday : (era * 146097 + day - 719468 + 719468 - era * 146097).toNat = day := by omega
  unfold dateOfDays
  simp only [hera, hday]
  rfl

private theorem daysOfDate_eq (era : Int) {year shifted day : Nat} (hyear : year < 400) (hshifted : shifted < 12) :
    let month := if shifted < 10 then shifted + 3 else shifted - 9
    daysOfDate (if month ≤ 2 then year + era * 400 + 1 else year + era * 400) month (day + 1) =
      era * 146097 + yearStart year + ((153 * shifted + 2) / 5 + day : Nat) - 719468 := by
  intro month
  have hmonth : (month + 9) % 12 = shifted := by
    simp only [month]
    split <;> omega
  have hfrom : (if month ≤ 2 then (if month ≤ 2 then (year : Int) + era * 400 + 1 else year + era * 400) - 1
      else (if month ≤ 2 then (year : Int) + era * 400 + 1 else year + era * 400)) = year + era * 400 := by
    split <;> omega
  have hera : Int.fdiv (year + era * 400) 400 = era := by
    rw [Int.fdiv_eq_ediv_of_nonneg _ (by decide)]
    omega
  unfold daysOfDate
  simp only [hfrom, hera, hmonth]
  unfold yearStart
  omega

theorem dateOfDays_spec (days : Int) : IsDate (dateOfDays days).1 (dateOfDays days).2.1 (dateOfDays days).2.2 ∧
    daysOfDate (dateOfDays days).1 (dateOfDays days).2.1 (dateOfDays days).2.2 = days := by
  obtain ⟨era, day, hday, rfl⟩ : ∃ (era : Int) (day : Nat), day < 146097 ∧ days = era * 146097 + day - 719468 :=
    ⟨(days + 719468) / 146097, ((days + 719468) % 146097).toNat, by omega, by omega⟩
  rw [dateOfDays_eq era hday]
  obtain ⟨hyear, hlow, hhigh⟩ := yearOfEra_bounds hday
  generalize yearOfEra day = year at hyear hlow hhigh ⊢
  obtain ⟨hlength, hleap⟩ := yearStart_succ hyear
  have hstart : yearStart year = 365 * year + year / 4 - year / 100 := by
    unfold yearStart
    omega
  dsimp only
  rw [← hstart]
  obtain ⟨dayOfYear, rfl⟩ := Nat.exists_eq_add_of_le hlow
  rw [Nat.add_sub_cancel_left]
  obtain ⟨hmonth, hfirst, hlast⟩ := shifted_bounds (show dayOfYear < 366 by omega)
  generalize (5 * dayOfYear + 2) / 153 = shifted at hmonth hfirst hlast ⊢
  refine ⟨⟨by split <;> omega, by split <;> omega, by omega, ?_⟩, ?_⟩
  · by_cases hfebruary : shifted = 11
    · subst hfebruary
      -- the last day of February is the only one that is not there every year
      show dayOfYear - 337 + 1 ≤ if isLeap (year + era * 400 + 1) then 29 else 28
      rw [show (year + era * 400 + 1 : Int) = (year + 1 : Nat) + era * 400 by omega, isLeap_add_era]
      split
      · omega
      · next hno =>
        have hne : yearStart (year + 1) ≠ yearStart year + 366 := fun heq => hno (hleap heq)
        omega
    · exact le_daysInMonth (by omega) (by omega)
  · rw [daysOfDate_eq era hyear hmonth]
    omega

/-! ### Digits -/

variable {ds rest : List Char} {most : Nat}

private theorem valueOf_eq (ds : List Char) : valueOf ds = Nat.ofDigitChars 10 ds 0 := by
  unfold valueOf Nat.ofDigitChars
  simp only [Nat.mul_comm]

private theorem skipBlank_cons {c : Char} (h : Blank.isBlank c = false) (cs : List Char) :
    skipBlank (c :: cs) = c :: cs :=
  List.dropWhile_cons_of_neg (by simp [h])

private theorem isBlank_of_isDigit {c : Char} (h : c.isDigit = true) : Blank.isBlank c = false := by
  have hall : ∀ n < 58, 48 ≤ n → Blank.isBlank (Char.ofNat n) = false := by decide
  simp only [Char.isDigit, Bool.and_eq_true, decide_eq_true_eq] at h
  have hn := hall c.toNat (Nat.lt_succ_of_le h.2) h.1
  rwa [Char.ofNat_toNat] at hn

private theorem skipBlank_digits (hds : ∀ c ∈ ds, c.isDigit = true) (hne : ds ≠ []) (rest : List Char) :
    skipBlank (ds ++ rest) = ds ++ rest := by
  obtain ⟨c, cs, rfl⟩ := List.exists_cons_of_ne_nil hne
  exact skipBlank_cons (isBlank_of_isDigit (hds c List.mem_cons_self)) _

private theorem number?_digits (hds : ∀ c ∈ ds, c.isDigit = true) (hne : ds ≠ []) (hlength : ds.length = most)
    (rest : List Char) : number? most (ds ++ rest) = some (valueOf ds, rest) := by
  unfold number?
  dsimp only
  rw [skipBlank_digits hds hne, List.take_left' hlength, List.takeWhile_eq_self_iff.2 hds, List.drop_left,
    if_neg (by simpa using hne)]

/-- The digits of a padded number. -/
private theorem padded_spec (width n : Nat) : (∀ c ∈ (padded width n).toList, c.isDigit = true) ∧
    (padded width n).toList ≠ [] ∧ valueOf (padded width n).toList = n ∧
    (0 < width → n < 10 ^ width → (padded width n).toList.length = width) := by
  have htext : (padded width n).toList =
      List.replicate (width - (Nat.toDigits 10 n).length) '0' ++ Nat.toDigits 10 n := by
    rw [padded, String.toList_ofList, Nat.toString_eq_repr, Nat.toList_repr, List.leftpad]
  rw [htext]
  refine ⟨fun c hc => ?_, List.append_ne_nil_of_right_ne_nil _ Nat.toDigits_ne_nil, ?_, fun hwidth hlt => ?_⟩
  · rcases List.mem_append.1 hc with hc | hc
    · rw [List.eq_of_mem_replicate hc]
      rfl
    · exact Nat.isDigit_of_mem_toDigits (by decide) (by decide) hc
  · rw [valueOf_eq, Nat.ofDigitChars_append, Nat.ofDigitChars_replicate_zero, Nat.mul_zero,
      Nat.ofDigitChars_ten_toDigits]
  · have hle : (Nat.toDigits 10 n).length ≤ width := (Nat.length_toDigits_le_iff (by decide) hwidth).2 hlt
    rw [List.length_append, List.length_replicate]
    omega

private theorem number?_padded {width n : Nat} (hwidth : 0 < width) (h : n < 10 ^ width) (rest : List Char) :
    number? width ((padded width n).toList ++ rest) = some (n, rest) := by
  obtain ⟨hdigits, hne, hvalue, hlength⟩ := padded_spec width n
  rw [number?_digits hdigits hne (hlength hwidth h), hvalue]

private theorem takeWhile_digits (hds : ∀ c ∈ ds, c.isDigit = true) {c : Char} (hc : c.isDigit = false)
    (rest : List Char) : (ds ++ c :: rest).takeWhile Char.isDigit = ds := by
  rw [List.takeWhile_append_of_pos hds, List.takeWhile_cons_of_neg (by simp [hc]), List.append_nil]

private theorem year?_signed {sign : Char} (hsign : sign = '-' ∨ sign = '+') (hds : ∀ c ∈ ds, c.isDigit = true)
    (hne : ds ≠ []) (rest : List Char) : year? (sign :: (ds ++ '-' :: rest)) =
      some (if sign = '-' then -(valueOf ds : Int) else valueOf ds, '-' :: rest) := by
  have hblank : Blank.isBlank sign = false := by rcases hsign with rfl | rfl <;> rfl
  unfold year?
  rw [skipBlank_cons hblank]
  dsimp only
  rw [takeWhile_digits hds rfl, if_pos hsign, List.drop_left, if_neg (by simpa using hne)]

private theorem year?_yearText (year : Int) (rest : List Char) :
    year? ((yearText year).toList ++ '-' :: rest) = some (year, '-' :: rest) := by
  unfold yearText
  split
  · next hshort =>
    obtain ⟨hdigits, hne, hvalue, hlength⟩ := padded_spec 4 year.toNat
    have hnumber := number?_digits hdigits hne (hlength (by decide) (by omega)) ('-' :: rest)
    have hskip := skipBlank_digits hdigits hne ('-' :: rest)
    obtain ⟨c, cs, hcs⟩ := List.exists_cons_of_ne_nil hne
    rw [hvalue] at hnumber
    rw [hcs, List.cons_append] at hnumber hskip ⊢
    have hsign : ¬ (c = '-' ∨ c = '+') := by
      have hdigit := hdigits c (hcs ▸ List.mem_cons_self)
      rintro (rfl | rfl) <;> cases hdigit
    unfold year?
    rw [hskip]
    dsimp only
    rw [if_neg hsign, hnumber]
    show some ((year.toNat : Int), '-' :: rest) = _
    rw [Int.toNat_of_nonneg hshort.1]
  · obtain ⟨hdigits, hne, hvalue, -⟩ := padded_spec 4 year.natAbs
    rw [String.toList_append, List.append_assoc]
    split
    · next hneg =>
      rw [show ("-" : String).toList = ['-'] from rfl, List.singleton_append,
        year?_signed (.inl rfl) hdigits hne, hvalue, if_pos rfl, show -(year.natAbs : Int) = year by omega]
    · next hpos =>
      rw [show ("+" : String).toList = ['+'] from rfl, List.singleton_append,
        year?_signed (.inr rfl) hdigits hne, hvalue, if_neg (by decide), show (year.natAbs : Int) = year by omega]

private theorem fraction?_padded {width n : Nat} (hwidth : 0 < width) (hnine : width ≤ 9) (h : n < 10 ^ width)
    (rest : List Char) :
    fraction? ('.' :: (padded width n).toList ++ 'Z' :: rest) = some (n * 10 ^ (9 - width), 'Z' :: rest) := by
  obtain ⟨hdigits, hne, hvalue, hlength⟩ := padded_spec width n
  have hlen := hlength hwidth h
  have htake := takeWhile_digits hdigits (show ('Z' : Char).isDigit = false from rfl) rest
  have hempty : ((padded width n).toList).isEmpty = false := by simpa using hne
  have hdrop : ((padded width n).toList ++ 'Z' :: rest).dropWhile Char.isDigit = 'Z' :: rest := by
    rw [List.dropWhile_append_of_pos hdigits]
    rfl
  have hpadding : ((padded width n).toList ++ List.replicate 9 '0').take 9 =
      (padded width n).toList ++ List.replicate (9 - width) '0' := by
    rw [List.take_append, hlen, List.take_of_length_le (by omega), List.take_replicate,
      Nat.min_eq_left (by omega)]
  rw [List.cons_append, fraction?, htake, hempty, hdrop, hpadding, if_neg Bool.false_ne_true, valueOf_eq,
    Nat.ofDigitChars_append, ← valueOf_eq, hvalue, Nat.ofDigitChars_replicate_zero, Nat.mul_comm]

private theorem fraction?_fractionText {nanos : Nat} (h : nanos < 1000000000) (rest : List Char) :
    fraction? ((fractionText nanos).toList ++ 'Z' :: rest) = some (nanos, 'Z' :: rest) := by
  unfold fractionText
  split
  · next hzero =>
    subst hzero
    rfl
  split
  · next hmillis =>
    have hread := fraction?_padded (show 0 < 3 by decide) (by decide) (show nanos / 1000000 < 10 ^ 3 by omega) rest
    have hscale : nanos / 1000000 * 10 ^ (9 - 3) = nanos := Nat.div_mul_cancel (Nat.dvd_of_mod_eq_zero hmillis)
    rw [hscale] at hread
    rw [String.toList_append]
    exact hread
  split
  · next hmicros =>
    have hread := fraction?_padded (show 0 < 6 by decide) (by decide) (show nanos / 1000 < 10 ^ 6 by omega) rest
    have hscale : nanos / 1000 * 10 ^ (9 - 6) = nanos := Nat.div_mul_cancel (Nat.dvd_of_mod_eq_zero hmicros)
    rw [hscale] at hread
    rw [String.toList_append]
    exact hread
  · have hread := fraction?_padded (show 0 < 9 by decide) (by decide) (show nanos < 10 ^ 9 by omega) rest
    rw [Nat.sub_self, Nat.pow_zero, Nat.mul_one] at hread
    rw [String.toList_append]
    exact hread

/-! ### Points in time -/

/-- A point in time that can be told; a leap second comes at the end of a minute. -/
structure IsValid (t : Timestamp) : Prop where
  low : bounds.1 ≤ t.seconds
  high : t.seconds ≤ bounds.2
  nanos : t.nanos < 2000000000
  leap : 1000000000 ≤ t.nanos → t.seconds % 60 = 59

theorem isValid_epoch : IsValid ⟨0, 0⟩ := ⟨by decide, by decide, by decide, by decide⟩

section

variable {days year : Int} {month day ofDay nanos : Nat} (hofDay : ofDay < 86400)

include hofDay

private theorem toList_toText (hdate : dateOfDays days = (year, month, day)) :
    (toText ⟨days * 86400 + ofDay, nanos⟩).toList = (yearText year).toList ++ '-' :: ((padded 2 month).toList ++
      '-' :: ((padded 2 day).toList ++ 'T' :: ((padded 2 (ofDay / 3600)).toList ++ ':' ::
        ((padded 2 (ofDay / 60 % 60)).toList ++ ':' :: ((padded 2 (ofDay % 60 + nanos / 1000000000)).toList ++
          ((fractionText (nanos % 1000000000)).toList ++ ['Z'])))))) := by
  have hdays : Int.fdiv (days * 86400 + ofDay) 86400 = days := by
    rw [Int.fdiv_eq_ediv_of_nonneg _ (by decide)]
    omega
  have hsecond : (days * 86400 + ofDay - days * 86400 : Int).toNat = ofDay := by omega
  unfold toText
  simp only [hdays, hsecond, hdate]
  simp

private theorem ofParts?_toText (h : IsValid ⟨days * 86400 + ofDay, nanos⟩) (hdate : IsDate year month day)
    (hdays : daysOfDate year month day = days) :
    ofParts? year month day (ofDay / 3600) (ofDay / 60 % 60) (ofDay % 60 + nanos / 1000000000)
      (nanos % 1000000000) 0 = some ⟨days * 86400 + ofDay, nanos⟩ := by
  obtain ⟨hlow, hhigh, hnanos, hleap⟩ := h
  dsimp only at hlow hhigh hnanos hleap
  obtain ⟨hmonth, hmonth', hday, hday'⟩ := hdate
  have hcarry : (ofDay % 60 + nanos / 1000000000) / 60 = nanos / 1000000000 := by omega
  have hclock : ofDay / 3600 * 3600 + ofDay / 60 % 60 * 60 +
      (ofDay % 60 + nanos / 1000000000 - nanos / 1000000000) = ofDay := by omega
  have hcount : nanos % 1000000000 + nanos / 1000000000 * 1000000000 = nanos := by omega
  unfold ofParts?
  dsimp only
  rw [hdays, hcarry, hclock, Int.sub_zero, min_self, max_self,
    if_pos ⟨hmonth, hmonth', hday, hday', by omega, by omega, by omega, hlow, hhigh⟩, hcount]

end

theorem parse?_toText {t : Timestamp} (h : t.IsValid) : parse? t.toText = some t := by
  obtain ⟨seconds, nanos⟩ := t
  obtain ⟨days, ofDay, hofDay, rfl⟩ : ∃ (days : Int) (ofDay : Nat), ofDay < 86400 ∧ seconds = days * 86400 + ofDay :=
    ⟨seconds / 86400, (seconds % 86400).toNat, by omega, by omega⟩
  obtain ⟨hdate, hback⟩ := dateOfDays_spec days
  obtain ⟨year, month, day, heq⟩ : ∃ year month day, dateOfDays days = (year, month, day) := ⟨_, _, _, rfl⟩
  rw [heq] at hdate hback
  dsimp only at hdate hback
  have hparts := ofParts?_toText hofDay h hdate hback
  have hmonth : month < 10 ^ 2 := hdate.month_le.trans_lt (by decide)
  have hday : day < 10 ^ 2 := by
    refine hdate.day_le.trans_lt ?_
    unfold daysInMonth
    split_ifs <;> decide
  have hnanos : nanos < 2000000000 := h.nanos
  -- every part is read from what the part in front of it leaves
  have htwo : 0 < 2 := by decide
  have hyear_read := year?_yearText year
  have hmonth_read := number?_padded htwo hmonth
  have hday_read := number?_padded htwo hday
  have hhour_read := number?_padded htwo (show ofDay / 3600 < 10 ^ 2 by omega)
  have hminute_read := number?_padded htwo (show ofDay / 60 % 60 < 10 ^ 2 by omega)
  have hsecond_read := number?_padded htwo (show ofDay % 60 + nanos / 1000000000 < 10 ^ 2 by omega)
  have hfraction_read := fraction?_fractionText (show nanos % 1000000000 < 1000000000 by omega) []
  have hdash (cs : List Char) : after? '-' ('-' :: cs) = some cs := rfl
  have hcolon (cs : List Char) : after? ':' (':' :: cs) = some cs := rfl
  have hoffset : offset? (skipBlank ['Z']) = some (0, []) := rfl
  unfold parse?
  rw [toList_toText hofDay heq]
  refine Option.bind_eq_some_iff.2 ⟨_, hyear_read _, ?_⟩
  refine Option.bind_eq_some_iff.2 ⟨_, hdash _, ?_⟩
  refine Option.bind_eq_some_iff.2 ⟨_, hmonth_read _, ?_⟩
  refine Option.bind_eq_some_iff.2 ⟨_, hdash _, ?_⟩
  refine Option.bind_eq_some_iff.2 ⟨_, hday_read _, ?_⟩
  refine Option.bind_eq_some_iff.2 ⟨_, rfl, ?_⟩
  refine Option.bind_eq_some_iff.2 ⟨_, hhour_read _, ?_⟩
  refine Option.bind_eq_some_iff.2 ⟨_, hcolon _, ?_⟩
  refine Option.bind_eq_some_iff.2 ⟨_, hminute_read _, ?_⟩
  refine Option.bind_eq_some_iff.2 ⟨_, hcolon _, ?_⟩
  refine Option.bind_eq_some_iff.2 ⟨_, hsecond_read _, ?_⟩
  refine Option.bind_eq_some_iff.2 ⟨_, hfraction_read, ?_⟩
  refine Option.bind_eq_some_iff.2 ⟨_, hoffset, ?_⟩
  exact hparts

end Timestamp

end MergedMining
