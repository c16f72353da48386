import MergedMining.Blank
import MergedMining.Json.Basic

/-!
# Points in time

A point in time counts seconds and nanoseconds since the beginning of 1970.  Its text is the date and the time
of day in universal time, with the fraction of a second in three, six or nine digits, or left out when it is
zero.
-/

namespace MergedMining

/-- A point in time. -/
structure Timestamp where
  seconds : Int
  nanos : Nat
  deriving Repr, DecidableEq, Inhabited

namespace Timestamp

/-! ### Calendar -/

/-- The days from the beginning of 1970 to a day, years counted from March so that a leap day comes last. -/
def daysOfDate (year : Int) (month day : Nat) : Int :=
  let y := if month ≤ 2 then year - 1 else year
  let era := Int.fdiv y 400
  let yearOfEra := y - era * 400
  let dayOfYear : Int := ((153 * ((month + 9) % 12) + 2) / 5 + day - 1 : Nat)
  era * 146097 + yearOfEra * 365 + yearOfEra / 4 - yearOfEra / 100 + dayOfYear - 719468

/-- The year, month and day of a number of days since the beginning of 1970. -/
def dateOfDays (days : Int) : Int × Nat × Nat :=
  let z := days + 719468
  let era := Int.fdiv z 146097
  let dayOfEra := (z - era * 146097).toNat
  let yearOfEra := (dayOfEra - dayOfEra / 1460 + dayOfEra / 36524 - dayOfEra / 146096) / 365
  let dayOfYear := dayOfEra - (365 * yearOfEra + yearOfEra / 4 - yearOfEra / 100)
  let shifted := (5 * dayOfYear + 2) / 153
  let day := dayOfYear - (153 * shifted + 2) / 5 + 1
  let month := if shifted < 10 then shifted + 3 else shifted - 9
  let year := (yearOfEra : Int) + era * 400
  (if month ≤ 2 then year + 1 else year, month, day)

/-- Whether a year has a leap day. -/
def isLeap (year : Int) : Bool :=
  year % 4 = 0 && (year % 100 ≠ 0 || year % 400 = 0)

/-- The number of days in a month. -/
def daysInMonth (year : Int) (month : Nat) : Nat :=
  if month = 2 then (if isLeap year then 29 else 28)
  else if month = 4 ∨ month = 6 ∨ month = 9 ∨ month = 11 then 30
  else 31

/-! ### Text -/

/-- A number in decimal with at least `width` digits. -/
def padded (width n : Nat) : String :=
  String.ofList ((toString n).toList.leftpad width '0')

/-- The fraction of a second. -/
def fractionText (nanos : Nat) : String :=
  if nanos = 0 then ""
  else if nanos % 1000000 = 0 then "." ++ padded 3 (nanos / 1000000)
  else if nanos % 1000 = 0 then "." ++ padded 6 (nanos / 1000)
  else "." ++ padded 9 nanos

/-- A year in four digits, with a sign when it takes more or lies before the year zero. -/
def yearText (year : Int) : String :=
  if 0 ≤ year ∧ year ≤ 9999 then padded 4 year.toNat
  else (if year < 0 then "-" else "+") ++ padded 4 year.natAbs

/-- The text of a point in time. -/
def toText (t : Timestamp) : String :=
  let days := Int.fdiv t.seconds 86400
  let ofDay := (t.seconds - days * 86400).toNat
  let (year, month, day) := dateOfDays days
  let leap := t.nanos / 1000000000
  yearText year ++ "-" ++ padded 2 month ++ "-" ++ padded 2 day ++ "T" ++ padded 2 (ofDay / 3600) ++ ":" ++
    padded 2 (ofDay / 60 % 60) ++ ":" ++ padded 2 (ofDay % 60 + leap) ++
    fractionText (t.nanos % 1000000000) ++ "Z"

/-! ### Reading -/

/-- The text behind leading white space. -/
def skipBlank (cs : List Char) : List Char := cs.dropWhile Blank.isBlank

/-- The value of decimal digits. -/
def valueOf (digits : List Char) : Nat := digits.foldl (fun n c => n * 10 + (c.toNat - '0'.toNat)) 0

/-- A number of one to `most` digits behind white space, and the text behind it. -/
def number? (most : Nat) (cs : List Char) : Option (Nat × List Char) :=
  let cs := skipBlank cs
  let digits := (cs.take most).takeWhile Char.isDigit
  if digits.isEmpty then none else some (valueOf digits, cs.drop digits.length)

/-- A year: four digits at most, or a sign and any number of digits. -/
def year? (cs : List Char) : Option (Int × List Char) :=
  match skipBlank cs with
  | sign :: rest =>
    let digits := rest.takeWhile Char.isDigit
    if sign = '-' ∨ sign = '+' then
      if digits.isEmpty then none
      else some (if sign = '-' then -(valueOf digits : Int) else valueOf digits, rest.drop digits.length)
    else (number? 4 (sign :: rest)).map fun (n, rest) => (n, rest)
  | [] => none

/-- The text behind a character that may follow white space. -/
def after? (c : Char) (cs : List Char) : Option (List Char) :=
  match skipBlank cs with
  | [] => none
  | d :: rest => if c = d then some rest else none

/-- The fraction of a second in nanoseconds, further digits being dropped. -/
def fraction? : List Char → Option (Nat × List Char)
  | '.' :: cs =>
    let front := cs.takeWhile Char.isDigit
    if front.isEmpty then none
    else some (valueOf ((front ++ List.replicate 9 '0').take 9), cs.dropWhile Char.isDigit)
  | cs => some (0, cs)

/-- Two digits at the front of a text, and the text behind them. -/
def twoDigits? : List Char → Option (Nat × List Char)
  | a :: b :: rest => if a.isDigit ∧ b.isDigit then some (valueOf [a, b], rest) else none
  | _ => none

/-- Hours and minutes in seconds, with colons or white space between them, and the text behind them. -/
def clock? (cs : List Char) : Option (Nat × List Char) := do
  let (hours, cs) ← twoDigits? cs
  let (minutes, cs) ← twoDigits? (cs.dropWhile fun c => c = ':' || Blank.isBlank c)
  if hours < 24 ∧ minutes < 60 then some (hours * 3600 + minutes * 60, cs) else none

/-- The seconds by which a clock is ahead of universal time, and the text behind them. -/
def offset? (cs : List Char) : Option (Int × List Char) :=
  match cs with
  | [] => none
  | sign :: rest =>
    if (cs.take 3).map Char.toUpper = ['U', 'T', 'C'] then some (0, cs.drop 3)
    else if sign = 'Z' ∨ sign = 'z' then some (0, rest)
    else if sign = '+' then (clock? rest).map fun (n, rest) => (n, rest)
    else if sign = '-' ∨ sign = '\u2212' then (clock? rest).map fun (n, rest) => (-(n : Int), rest)
    else none

/-- The first and the last second that can be told. -/
def bounds : Int × Int :=
  (daysOfDate (-262143) 1 1 * 86400, daysOfDate 262142 12 31 * 86400 + 86399)

/-- The point in time of a date and a time of day, none when there is no such date or time.  A minute may have a
sixtieth second. -/
def ofParts? (year : Int) (month day hour minute second nanos : Nat) (offset : Int) : Option Timestamp :=
  let leap := second / 60
  let told := daysOfDate year month day * 86400 + (hour * 3600 + minute * 60 + (second - leap) : Nat)
  let seconds := told - offset
  if 1 ≤ month ∧ month ≤ 12 ∧ 1 ≤ day ∧ day ≤ daysInMonth year month ∧ hour < 24 ∧ minute < 60 ∧ second ≤ 60 ∧
      bounds.1 ≤ min told seconds ∧ max told seconds ≤ bounds.2 then
    some ⟨seconds, nanos + leap * 1000000000⟩
  else none

/-- Reads a point in time.  White space may stand between the parts, and zeros in front of a number may be left
out. -/
def parse? (s : String) : Option Timestamp := do
  let (year, cs) ← year? s.toList
  let (month, cs) ← number? 2 (← after? '-' cs)
  let (day, cs) ← number? 2 (← after? '-' cs)
  let cs ← match cs with
    | 'T' :: cs => some cs
    | 't' :: cs => some cs
    | ' ' :: cs => some cs
    | _ => none
  let (hour, cs) ← number? 2 cs
  let (minute, cs) ← number? 2 (← after? ':' cs)
  let (second, cs) ← number? 2 (← after? ':' cs)
  let (nanos, cs) ← fraction? cs
  let (offset, cs) ← offset? (skipBlank cs)
  if (skipBlank cs).isEmpty then ofParts? year month day hour minute second nanos offset else none

/-- Reads a point in time given as a string. -/
def ofJson? (v : Json) : Option Timestamp := v.toStr?.bind parse?

/-- Writes a point in time. -/
def toJson (t : Timestamp) : Json := .str t.toText

end Timestamp

end MergedMining
