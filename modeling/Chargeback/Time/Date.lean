/-!
# Dates

The proleptic Gregorian calendar, in which a year zero exists. Days are numbered
from the first of January 1970. Between date and day number the year is taken to
start in March, so that the leap day is its last day: then the months before a
given one have `(153 * m + 2) / 5` days, and 400 years have 146097.

## Main definitions

* `Date`: year, month and day of the month.
* `Date.dayNumber`, `Date.ofDayNumber`: the count of days and back.
* `Date.IsValid`: the day exists in its month.
-/

namespace Chargeback

/-- A date of the proleptic Gregorian calendar. -/
structure Date where
  year : Int
  month : Nat
  day : Nat
deriving DecidableEq, Repr, Inhabited

namespace Date

/-- A year has a leap day: every fourth, but of the full centuries only every
fourth. -/
def isLeapYear (year : Int) : Bool :=
  year % 4 = 0 && (year % 100 ≠ 0 || year % 400 = 0)

/-- The number of days of a month. -/
def daysOfMonth (year : Int) (month : Nat) : Nat :=
  if month = 2 then (if isLeapYear year then 29 else 28)
  else if month = 4 || month = 6 || month = 9 || month = 11 then 30
  else 31

/-- The month exists and has the day. -/
def IsValid (d : Date) : Prop :=
  1 ≤ d.month ∧ d.month ≤ 12 ∧ 1 ≤ d.day ∧ d.day ≤ daysOfMonth d.year d.month

instance (d : Date) : Decidable d.IsValid := by unfold IsValid; infer_instance

/-- Days from the start of the year zero's March to the start of a year's. -/
def daysBeforeYear (year : Int) : Int := 365 * year + year / 4 - year / 100 + year / 400

/-- Days from the start of March to the start of the month that comes `m` months
later. -/
def daysBeforeMonth (m : Int) : Int := (153 * m + 2) / 5

/-- The number of a date's day, counted from the first of January 1970. -/
def dayNumber (d : Date) : Int :=
  let year := if d.month ≤ 2 then d.year - 1 else d.year
  let month : Int := if d.month ≤ 2 then d.month + 9 else d.month - 3
  daysBeforeYear year + daysBeforeMonth month + (d.day - 1) - 719468

/-- The date of the day with the given number. -/
def ofDayNumber (n : Int) : Date :=
  let n := n + 719468
  let cycle := n / 146097
  let dayOfCycle := n % 146097
  let yearOfCycle :=
    (dayOfCycle - dayOfCycle / 1460 + dayOfCycle / 36524 - dayOfCycle / 146096) / 365
  let dayOfYear := dayOfCycle - (365 * yearOfCycle + yearOfCycle / 4 - yearOfCycle / 100)
  let month := (5 * dayOfYear + 2) / 153
  let year := 400 * cycle + yearOfCycle
  { year := if month < 10 then year else year + 1
    month := (if month < 10 then month + 3 else month - 9).toNat
    day := (dayOfYear - daysBeforeMonth month + 1).toNat }

/-- The first day of the month that follows a date's month. -/
def nextMonth (d : Date) : Date :=
  if d.month = 12 then ⟨d.year + 1, 1, 1⟩ else ⟨d.year, d.month + 1, 1⟩

example : ofDayNumber 0 = ⟨1970, 1, 1⟩ ∧ dayNumber ⟨1970, 1, 1⟩ = 0 := by decide
example : ofDayNumber 19782 = ⟨2024, 2, 29⟩ ∧ dayNumber ⟨2024, 2, 29⟩ = 19782 := by decide
example : ofDayNumber (-719529) = ⟨-1, 12, 31⟩ ∧ dayNumber ⟨0, 1, 1⟩ = -719528 := by decide

end Date

end Chargeback
