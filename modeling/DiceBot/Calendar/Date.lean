import DiceBot.Text.Basic

/-!
# Dates

Dates of the Gregorian calendar, extended backwards to the year 1. A date is known by year, month
and day, or by year, week and weekday; weeks begin on Monday, and the first week of a year is the
one that holds its first Thursday.

## Main definitions

* `Date`: a date of the years 1 to 9999
* `Date.ofNumbers?`: the date with a given year, month and day
* `Date.ofWeek?`: the date with a given year, week and weekday
* `Date.ordinal`: the number of a date, counted from the first day of the year 1
-/

namespace DiceBot

/-- Whether a year has a leap day. -/
def isLeapYear (year : Nat) : Bool :=
  year % 4 = 0 && (year % 100 ≠ 0 || year % 400 = 0)

/-- The number of days in each month of a year. -/
def monthLengths (year : Nat) : List Nat :=
  [31, if isLeapYear year then 29 else 28, 31, 30, 31, 30, 31, 31, 30, 31, 30, 31]

/-- The number of days in a year. -/
def yearLength (year : Nat) : Nat :=
  if isLeapYear year then 366 else 365

/-- The number of days in a month, counted from one; there are none in a month that does not
exist. -/
def daysInMonth (year month : Nat) : Nat :=
  if month = 0 then 0 else (monthLengths year)[month - 1]?.getD 0

/-- The number of days from the first day of the year 1 up to the first day of a year. -/
def daysBeforeYear (year : Nat) : Nat :=
  let years := year - 1
  365 * years + years / 4 - years / 100 + years / 400

/-- A date of the years 1 to 9999. -/
structure Date where
  /-- The year. -/
  year : Nat
  /-- The month, counted from one. -/
  month : Nat
  /-- The day of the month, counted from one. -/
  day : Nat
  /-- Years begin with the year 1. -/
  one_le_year : 1 ≤ year
  /-- Years end with the year 9999. -/
  year_le : year ≤ 9999
  /-- Days begin with the day 1. -/
  one_le_day : 1 ≤ day
  /-- No day lies beyond the month. -/
  day_le : day ≤ daysInMonth year month
deriving DecidableEq

namespace Date

/-- The date with a given year, month and day. -/
def ofNumbers? (year month day : Nat) : Option Date :=
  if h : (1 ≤ year ∧ year ≤ 9999) ∧ 1 ≤ day ∧ day ≤ daysInMonth year month then
    some ⟨year, month, day, h.1.1, h.1.2, h.2.1, h.2.2⟩
  else none

theorem ofNumbers?_self (d : Date) : ofNumbers? d.year d.month d.day = some d := by
  simp [ofNumbers?, d.one_le_year, d.year_le, d.one_le_day, d.day_le]

/-- The number of a date, counted from zero at the first day of the year 1. -/
def ordinal (d : Date) : Nat :=
  daysBeforeYear d.year + ((monthLengths d.year).take (d.month - 1)).foldr (· + ·) 0 + (d.day - 1)

/-- The month and the day with a given number, counted from zero, in months of given lengths; the
first of them has the number `month`. -/
def monthAndDay (month : Nat) : List Nat → Nat → Nat × Nat
  | [], n => (month, n + 1)
  | length :: rest, n =>
    if n < length then (month, n + 1) else monthAndDay (month + 1) rest (n - length)

/-- The date with a given number in a year, counted from zero. -/
def ofDayOfYear? (year n : Nat) : Option Date :=
  let (month, day) := monthAndDay 1 (monthLengths year) n
  ofNumbers? year month day

/-- The weekday of the first day of a year, counted from zero at Monday. -/
def firstWeekday (year : Nat) : Nat :=
  daysBeforeYear year % 7

/-- The number of weeks in a year: 53 if it begins on a Thursday, or on a Wednesday with a leap
day. -/
def weeksInYear (year : Nat) : Nat :=
  if firstWeekday year = 3 || (firstWeekday year = 2 && isLeapYear year) then 53 else 52

/-- The date with a given year, week and weekday, all counted from one. Its first days may lie in
the year before, its last ones in the year after. -/
def ofWeek? (year week weekday : Nat) : Option Date :=
  if 1 ≤ year ∧ 1 ≤ week ∧ week ≤ weeksInYear year ∧ 1 ≤ weekday ∧ weekday ≤ 7 then
    let first := firstWeekday year
    let ahead := 7 * (week - 1) + (weekday - 1)
    let behind := if first ≤ 3 then first else 0
    let ahead := if first ≤ 3 then ahead else ahead + (7 - first)
    if ahead < behind then ofDayOfYear? (year - 1) (yearLength (year - 1) - (behind - ahead))
    else if ahead - behind < yearLength year then ofDayOfYear? year (ahead - behind)
    else ofDayOfYear? (year + 1) (ahead - behind - yearLength year)
  else none

/-- A date as year, month and day between hyphens. -/
def text (d : Date) : Text :=
  Text.padded 4 d.year ++ "-" ++ Text.padded 2 d.month ++ "-" ++ Text.padded 2 d.day

end Date

end DiceBot
