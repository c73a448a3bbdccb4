/-!
# Dates of the Gregorian calendar

Dates of the proleptic Gregorian calendar, counted in days from the first of January of the year 1.
A year has 365 days, and one more when it is divisible by 4 but not by 100, or divisible by 400.

## Main definitions

* `Date`, `Date.isReal`
* `Date.dayNumber`: the days between the first day of the year 1 and a date.
* `Date.ofDayNumber`: the date of a day.
* `epochDay`: the day number of the first of January 1970.
-/
namespace LogRelay

/-- A year, a month from 1 to 12 and a day from 1, not necessarily of the calendar. -/
structure Date where
  year : Nat
  month : Nat
  day : Nat
  deriving DecidableEq

namespace Date

/-- Whether the year has a 29th of February. -/
def isLeapYear (year : Nat) : Bool :=
  year % 4 = 0 ∧ (year % 100 ≠ 0 ∨ year % 400 = 0)

/-- The lengths of the months of a year, in order. -/
def monthLengths (year : Nat) : List Nat :=
  [31, if isLeapYear year then 29 else 28, 31, 30, 31, 30, 31, 31, 30, 31, 30, 31]

/-- The length of a month, zero if there is no such month. -/
def monthLength (year month : Nat) : Nat :=
  if month = 0 then 0 else (monthLengths year)[month - 1]?.getD 0

/-- Whether the date stands in the calendar, from the year 1 to the year 9999. -/
def isReal (d : Date) : Bool :=
  1 ≤ d.year ∧ d.year ≤ 9999 ∧ 1 ≤ d.month ∧ d.month ≤ 12 ∧ 1 ≤ d.day ∧
    d.day ≤ monthLength d.year d.month

/-- The days before a year, from the start of the year 1. -/
def daysBeforeYear (year : Nat) : Nat :=
  let y := year - 1
  365 * y + y / 4 - y / 100 + y / 400

/-- The days of a year before a month. -/
def daysBeforeMonth (year month : Nat) : Nat :=
  ((monthLengths year).take (month - 1)).foldl (· + ·) 0

/-- The days between the first day of the year 1 and a date. -/
def dayNumber (d : Date) : Nat :=
  daysBeforeYear d.year + daysBeforeMonth d.year d.month + (d.day - 1)

/-- The year in which a day lies.  Four hundred years have 146097 days, so the quotient is off by at
most one. -/
def yearOf (n : Nat) : Nat :=
  let y := n * 400 / 146097 + 1
  if n < daysBeforeYear y then y - 1 else if daysBeforeYear (y + 1) ≤ n then y + 1 else y

/-- The month and day of a day of the year, given the lengths of the months from `month` on. -/
def splitMonths (month : Nat) : List Nat → Nat → Nat × Nat
  | [], n => (month, n + 1)
  | length :: rest, n =>
    if n < length then (month, n + 1) else splitMonths (month + 1) rest (n - length)

/-- The date of a day. -/
def ofDayNumber (n : Nat) : Date :=
  let year := yearOf n
  let (month, day) := splitMonths 1 (monthLengths year) (n - daysBeforeYear year)
  ⟨year, month, day⟩

end Date

/-- The day number of the first of January 1970. -/
def epochDay : Nat := 719162

end LogRelay
