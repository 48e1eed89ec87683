/-
# Dates of the Gregorian calendar

Dates of the years 1 to 9999, and their place in the row of all days: the
ordinal of 0001-01-01 is 0, and the day number of 1970-01-01 is 0.
-/

import MachineCatalog.Text.Numeral

namespace MachineCatalog
namespace Calendar

/-- A leap year has 366 days. -/
def isLeap (year : Nat) : Bool := year % 4 = 0 && (year % 100 ≠ 0 || year % 400 = 0)

/-- The lengths of the twelve months. -/
def monthLengths (leap : Bool) : List Nat :=
  [31, if leap then 29 else 28, 31, 30, 31, 30, 31, 31, 30, 31, 30, 31]

/-- The length of a month, 0 for a number that names no month. -/
def monthLength (year month : Nat) : Nat :=
  if month = 0 then 0 else (monthLengths (isLeap year)).getD (month - 1) 0

/-- The days of the years before the given one. -/
def daysBeforeYear (year : Nat) : Nat :=
  let n := year - 1
  365 * n + n / 4 - n / 100 + n / 400

/-- The days of the year before the given month. -/
def daysBeforeMonth (year month : Nat) : Nat :=
  ((monthLengths (isLeap year)).take (month - 1)).foldl (· + ·) 0

end Calendar

open Calendar in
/-- A date of the years 1 to 9999. -/
structure Date where
  year : Nat
  month : Nat
  day : Nat
  real : 1 ≤ year ∧ year ≤ 9999 ∧ 1 ≤ month ∧ month ≤ 12 ∧ 1 ≤ day ∧ day ≤ monthLength year month
deriving DecidableEq

namespace Date

open Calendar

/-- The date with the given parts, if there is such a day. -/
def ofParts? (year month day : Nat) : Option Date :=
  if h : 1 ≤ year ∧ year ≤ 9999 ∧ 1 ≤ month ∧ month ≤ 12 ∧ 1 ≤ day ∧ day ≤ monthLength year month
  then some ⟨year, month, day, h⟩
  else none

/-- The number of days from 0001-01-01. -/
def ordinal (d : Date) : Nat :=
  daysBeforeYear d.year + daysBeforeMonth d.year d.month + (d.day - 1)

/-- The ordinal of 1970-01-01. -/
def epochOrdinal : Nat := 719162

/-- The number of days from 1970-01-01. -/
def dayNumber (d : Date) : Int := (d.ordinal : Int) - epochOrdinal

/-- The month and the day of the month, from the days before it in the year. -/
def splitMonths : List Nat → Nat → Nat × Nat
  | [], rest => (1, rest + 1)
  | len :: months, rest =>
    if rest < len then (1, rest + 1)
    else
      let (m, d) := splitMonths months (rest - len)
      (m + 1, d)

/-- The date `n` days after 0001-01-01, if it falls in the years 1 to 9999.
Years are counted off in periods of 400, 100, 4 and 1; the last period of 100
and the last of 1 are a day longer. -/
def ofOrdinal? (n : Nat) : Option Date :=
  let inCycle := n % 146097
  let centuries := min (inCycle / 36524) 3
  let inCentury := inCycle - centuries * 36524
  let inFour := inCentury % 1461
  let years := min (inFour / 365) 3
  let year := n / 146097 * 400 + centuries * 100 + inCentury / 1461 * 4 + years + 1
  let (month, day) := splitMonths (monthLengths (isLeap year)) (inFour - years * 365)
  ofParts? year month day

/-- The date with the given day number. -/
def ofDayNumber? (n : Int) : Option Date :=
  if n < -(epochOrdinal : Int) then none else ofOrdinal? (n + epochOrdinal).toNat

/-- The ordinal of the Monday of the first week of a year: the week that holds
the year's first Thursday.  The Monday may fall in the year before. -/
def firstMonday (year : Nat) : Int :=
  let first : Int := daysBeforeYear year
  let weekday := first % 7
  if 3 < weekday then first - weekday + 7 else first - weekday

/-- The date of a day of a numbered week. -/
def ofWeek? (year week day : Nat) : Option Date :=
  let monday := firstMonday year
  if 1 ≤ year ∧ year ≤ 9999 ∧ 1 ≤ week ∧ 1 ≤ day ∧ day ≤ 7 ∧
      monday + 7 * (week - 1 : Nat) < firstMonday (year + 1) then
    ofOrdinal? (monday + 7 * (week - 1 : Nat) + (day - 1 : Nat)).toNat
  else none

/-- The date as `YYYY-MM-DD`. -/
def text (d : Date) : Text :=
  Text.padded 4 d.year ++ "-" ++ Text.padded 2 d.month ++ "-" ++ Text.padded 2 d.day

end Date
end MachineCatalog
