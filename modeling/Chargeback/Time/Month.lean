import Chargeback.Time.Instant

/-!
# The current month

Costs are counted from the start of the month that contains the present time.
This module says when that month began, how long it is and how much of a window
of time falls into its elapsed part.

## Main definitions

* `Month.start`: the first instant of an instant's month.
* `Month.days`: the length of that month.
* `Month.hoursElapsed`: whole hours from its start.
* `Month.activeSeconds`: whole seconds of a window in the elapsed part of it.
-/

namespace Chargeback

namespace Month

/-- The first instant of the month that contains `now`. -/
def start (now : Instant) : Instant :=
  Instant.ofDate { now.date with day := 1 }

/-- The first instant of the following month, when it is still in range. -/
def next? (now : Instant) : Option Instant :=
  let t := Instant.ofDate now.date.nextMonth
  if t.inRange then some t else none

/-- The number of days of the month that contains `now`; 30 for the last month
of the last year, whose end is out of range. -/
def days (now : Instant) : Nat :=
  match next? now with
  | some next => ((next.seconds - (start now).seconds) / 86400).toNat
  | none => 30

/-- Whole hours from the start of the month to `now`. -/
def wholeHours (now : Instant) : Nat := 24 * (now.date.day - 1) + now.hour

/-- Whole hours from the start of the month to `now`, as a double. -/
def hoursElapsed (now : Instant) : Float :=
  24.0 * (now.date.day - 1).toFloat + now.hour.toFloat

/-- The share of the month that has passed at `now`, by whole hours. -/
def fractionElapsed (now : Instant) : Float :=
  hoursElapsed now / ((days now).toFloat * 24.0)

/-- Whole seconds of the window from `begin` to `finish` that lie between the start
of the month and `now`. A window without an end lasts until `now`. -/
def activeSeconds (begin : Instant) (finish : Option Instant) (now : Instant) : Int :=
  let first := begin.later (start now)
  let last := (finish.getD now).earlier now
  if last ≤ first then 0 else last.secondsSince first

/-- The same in hours, as a double. -/
def activeHours (begin : Instant) (finish : Option Instant) (now : Instant) : Float :=
  Float.ofInt (activeSeconds begin finish now) / 3600.0

end Month

end Chargeback
