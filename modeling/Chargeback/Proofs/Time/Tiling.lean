import Chargeback.Proofs.Double.Exact
import Chargeback.Proofs.Time.Calendar
import Mathlib.Algebra.Order.Field.Basic
import Mathlib.Algebra.Order.Field.Rat
import Mathlib.Order.Monotone.Basic
import Mathlib.Tactic.Positivity

/-!
# Months tile the line of time

Months are counted from January of the year zero. Each of them ends where the next one begins,
so every day lies in exactly one of them, and a date is found again from the number of its day.
An instant lies in a month if its day does. What is said about the month of an instant, its
first instant and its length, depends on the number of the month only.

## Main definitions

* `Date.monthCount`, `Date.ofMonth`: the number of a month, and its first day.
* `Date.dayNumber_ofMonth_succ`: a month ends where the next one begins.
* `Date.monthCount_ofDayNumber_iff`: the month that a day lies in.
* `Month.index`, `Month.first`: the month of an instant, and the first instant of a month.
* `Month.LiesInMonth`, `Month.months_tile`: the beginning, the length and the elapsed hours of
  the month that an instant lies in.
-/

namespace Chargeback

namespace Date

variable {d d' : Date} {k n : Int}

/-! ## Months in a row -/

/-- The number of a date's month, counted from January of the year zero. -/
def monthCount (d : Date) : Int := 12 * d.year + d.month - 1

/-- The first day of the month with a given number. -/
def ofMonth (k : Int) : Date := { year := k / 12, month := (k % 12 + 1).toNat, day := 1 }

/-- The length of the month with a given number. -/
def lengthOfMonth (k : Int) : Nat := daysOfMonth (k / 12) (k % 12 + 1).toNat

theorem lengthOfMonth_pos (k : Int) : 0 < lengthOfMonth k := by
  unfold lengthOfMonth daysOfMonth
  split
  · split <;> decide
  · split <;> decide

/-- A month ends where the next one begins. Only that of February depends on the year. -/
theorem dayNumber_ofMonth_succ (k : Int) :
    (ofMonth (k + 1)).dayNumber = (ofMonth k).dayNumber + lengthOfMonth k := by
  have hleap := daysBeforeYear_add_one (k / 12 - 1)
  rw [Int.sub_add_cancel] at hleap
  have hmonths : k % 12 = 0 ∨ k % 12 = 1 ∨ k % 12 = 2 ∨ k % 12 = 3 ∨ k % 12 = 4 ∨ k % 12 = 5 ∨
      k % 12 = 6 ∨ k % 12 = 7 ∨ k % 12 = 8 ∨ k % 12 = 9 ∨ k % 12 = 10 ∨ k % 12 = 11 := by omega
  have hnext : k % 12 = 11 ∧ (k + 1) / 12 = k / 12 + 1 ∧ (k + 1) % 12 = 0 ∨
      (k + 1) / 12 = k / 12 ∧ (k + 1) % 12 = k % 12 + 1 := by omega
  unfold ofMonth lengthOfMonth
  generalize k / 12 = y at *
  generalize k % 12 = r at *
  rcases hnext with ⟨rfl, hyear, hmonth⟩ | ⟨hyear, hmonth⟩
  · simp [dayNumber, daysBeforeMonth, daysOfMonth, hyear, hmonth]
    omega
  · rw [hyear, hmonth]
    by_cases h : isLeapYear y
    · simp only [h, if_true] at hleap
      rcases hmonths with rfl | rfl | rfl | rfl | rfl | rfl | rfl | rfl | rfl | rfl | rfl | rfl <;>
        simp [dayNumber, daysBeforeMonth, daysOfMonth, h] <;> omega
    · simp only [h, Bool.false_eq_true, if_false] at hleap
      rcases hmonths with rfl | rfl | rfl | rfl | rfl | rfl | rfl | rfl | rfl | rfl | rfl | rfl <;>
        simp [dayNumber, daysBeforeMonth, daysOfMonth, h] <;> omega

theorem dayNumber_ofMonth_strictMono : StrictMono fun k => (ofMonth k).dayNumber :=
  strictMono_int_of_lt_succ fun k => by
    have hlength := lengthOfMonth_pos k
    have hnext := dayNumber_ofMonth_succ k
    omega

/-! ## The month of a date -/

@[simp] theorem monthCount_ofMonth (k : Int) : (ofMonth k).monthCount = k := by
  unfold monthCount ofMonth
  dsimp only
  omega

/-- The year and the month of a date. -/
theorem IsValid.ofMonth_monthCount (h : d.IsValid) :
    ofMonth d.monthCount = { d with day := 1 } := by
  obtain ⟨hmonth, hmonth', -, -⟩ := h
  have hyear : (12 * d.year + d.month - 1) / 12 = d.year := by omega
  have hplace : ((12 * d.year + (d.month : Int) - 1) % 12 + 1).toNat = d.month := by omega
  simp only [ofMonth, monthCount, hyear, hplace]

theorem IsValid.lengthOfMonth_eq (h : d.IsValid) :
    lengthOfMonth d.monthCount = daysOfMonth d.year d.month := by
  have hfirst := h.ofMonth_monthCount
  simp only [ofMonth, mk.injEq] at hfirst
  rw [lengthOfMonth, hfirst.1, hfirst.2.1]

/-- The month that follows that of a date. -/
theorem IsValid.nextMonth_eq (h : d.IsValid) : d.nextMonth = ofMonth (d.monthCount + 1) := by
  obtain ⟨hmonth, hmonth', -, -⟩ := h
  unfold nextMonth ofMonth monthCount
  split
  next hlast =>
    have hyear : (12 * d.year + (d.month : Int) - 1 + 1) / 12 = d.year + 1 := by omega
    have hplace : ((12 * d.year + (d.month : Int) - 1 + 1) % 12 + 1).toNat = 1 := by omega
    rw [hyear, hplace]
  next hearly =>
    have hyear : (12 * d.year + (d.month : Int) - 1 + 1) / 12 = d.year := by omega
    have hplace : ((12 * d.year + (d.month : Int) - 1 + 1) % 12 + 1).toNat = d.month + 1 := by omega
    rw [hyear, hplace]

/-- The days of a month before a date lie behind its first one. -/
theorem IsValid.dayNumber_eq (h : d.IsValid) :
    d.dayNumber = (ofMonth d.monthCount).dayNumber + (d.day - 1) := by
  rw [h.ofMonth_monthCount]
  unfold dayNumber
  dsimp only
  omega

theorem IsValid.dayNumber_bounds (h : d.IsValid) :
    (ofMonth d.monthCount).dayNumber ≤ d.dayNumber ∧
      d.dayNumber < (ofMonth (d.monthCount + 1)).dayNumber := by
  have hlength := h.lengthOfMonth_eq
  have hnext := dayNumber_ofMonth_succ d.monthCount
  have hday := h.dayNumber_eq
  obtain ⟨-, -, hfirst, hlast⟩ := h
  omega

/-- A day lies in the month between whose first day and that of the next one it is. -/
theorem monthCount_ofDayNumber_iff :
    (ofDayNumber n).monthCount = k ↔
      (ofMonth k).dayNumber ≤ n ∧ n < (ofMonth (k + 1)).dayNumber := by
  obtain ⟨hlow, hhigh⟩ := (isValid_ofDayNumber n).dayNumber_bounds
  rw [dayNumber_ofDayNumber] at hlow hhigh
  constructor
  · rintro rfl
    exact ⟨hlow, hhigh⟩
  · rintro ⟨hlow', hhigh'⟩
    have hle := dayNumber_ofMonth_strictMono.lt_iff_lt.mp (Int.lt_of_le_of_lt hlow hhigh')
    have hge := dayNumber_ofMonth_strictMono.lt_iff_lt.mp (Int.lt_of_le_of_lt hlow' hhigh)
    omega

/-- The first day of a month is found again. -/
theorem ofDayNumber_ofMonth (k : Int) : ofDayNumber (ofMonth k).dayNumber = ofMonth k := by
  have hmonth : (ofDayNumber (ofMonth k).dayNumber).monthCount = k :=
    monthCount_ofDayNumber_iff.mpr
      ⟨Int.le_refl _, dayNumber_ofMonth_strictMono (Int.lt_succ k)⟩
  have hvalid := isValid_ofDayNumber (ofMonth k).dayNumber
  have hday := hvalid.dayNumber_eq
  have hfirst := hvalid.ofMonth_monthCount
  have hpos := hvalid.2.2.1
  rw [dayNumber_ofDayNumber, hmonth] at hday
  rw [hmonth] at hfirst
  have hone : (ofDayNumber (ofMonth k).dayNumber).day = 1 := by omega
  generalize ofDayNumber (ofMonth k).dayNumber = d at *
  rw [hfirst, ← hone]

end Date

/-! ## The month of an instant -/

namespace Month

variable {s t u : Instant} {k : Int}

/-- The number of the month that an instant lies in. -/
def index (t : Instant) : Int := t.date.monthCount

/-- The first instant of the month with a given number. -/
def first (k : Int) : Instant := Instant.ofDate (Date.ofMonth k)

theorem start_eq_first (t : Instant) : start t = first (index t) := by
  have hvalid : t.date.IsValid := Date.isValid_ofDayNumber t.dayNumber
  rw [start, first, index, hvalid.ofMonth_monthCount]

/-- A month ends where the next one begins. -/
theorem first_succ (k : Int) :
    first (k + 1) = (first k).addSeconds (86400 * Date.lengthOfMonth k) := by
  simp only [first, Instant.ofDate, Instant.addSeconds, Date.dayNumber_ofMonth_succ, Int.mul_add]

/-- An instant lies in a month if it comes neither before it nor after it. -/
theorem index_eq_iff : index t = k ↔ first k ≤ t ∧ t < first (k + 1) := by
  rw [index, Instant.date, Date.monthCount_ofDayNumber_iff, Instant.lt_iff_not_le, Instant.le_iff,
    Instant.le_iff]
  simp only [first, Instant.ofDate, Instant.dayNumber]
  omega

theorem dayNumber_first (k : Int) : (first k).dayNumber = (Date.ofMonth k).dayNumber := by
  simp only [first, Instant.ofDate, Instant.dayNumber]
  omega

theorem date_first (k : Int) : (first k).date = Date.ofMonth k := by
  rw [Instant.date, dayNumber_first, Date.ofDayNumber_ofMonth]

@[simp] theorem index_first (k : Int) : index (first k) = k := by
  rw [index, date_first, Date.monthCount_ofMonth]

theorem next?_eq (t : Instant) :
    next? t = if (first (index t + 1)).inRange then some (first (index t + 1)) else none := by
  have hvalid : t.date.IsValid := Date.isValid_ofDayNumber t.dayNumber
  rw [next?, hvalid.nextMonth_eq, first, index]

theorem next?_eq_some (h : (next? t).isSome) : next? t = some (first (index t + 1)) := by
  rw [next?_eq] at h ⊢
  by_cases hrange : (first (index t + 1)).inRange
  · rw [if_pos hrange]
  · rw [if_neg hrange] at h
    cases h

/-- The length of a month is that of the calendar, if its end is in range. -/
theorem days_eq (h : (next? t).isSome) : days t = Date.lengthOfMonth (index t) := by
  have hlength : (first (index t + 1)).seconds - (first (index t)).seconds =
      86400 * Date.lengthOfMonth (index t) := by
    rw [first_succ]
    exact add_sub_cancel_left _ _
  unfold days
  rw [next?_eq_some h, start_eq_first]
  simp [hlength]

/-- The hours that have passed are those of the seconds since the month began. -/
theorem wholeHours_eq (t : Instant) :
    (wholeHours t : Int) = (t.seconds - (start t).seconds) / 3600 := by
  have hvalid : t.date.IsValid := Date.isValid_ofDayNumber t.dayNumber
  have hday : t.dayNumber = (Date.ofMonth (index t)).dayNumber + (t.date.day - 1) := by
    rw [index, ← hvalid.dayNumber_eq]
    exact (Date.dayNumber_ofDayNumber t.dayNumber).symm
  have hpos := hvalid.2.2.1
  rw [start_eq_first]
  simp only [first, Instant.ofDate, wholeHours, Instant.hour, Instant.secondOfDay,
    Instant.dayNumber] at *
  omega

/-! ## What the month of an instant has to do with that of another -/

/-- The end of the month that contains an instant, by its beginning and its length. -/
def finish (t : Instant) : Instant := (start t).addSeconds (86400 * days t)

theorem finish_eq_first (h : (next? t).isSome) : finish t = first (index t + 1) := by
  rw [finish, days_eq h, start_eq_first, ← first_succ]

theorem start_eq_start_iff : start u = start t ↔ index u = index t := by
  rw [start_eq_first, start_eq_first]
  constructor
  · intro hfirst
    rw [← index_first (index u), hfirst, index_first]
  · intro hindex
    rw [hindex]

theorem days_eq_of_index (h : index u = index t) : days u = days t := by
  unfold days
  rw [next?_eq, next?_eq, start_eq_first, start_eq_first, h]

theorem lt_finish (h : (next? t).isSome) : t < finish t := by
  rw [finish_eq_first h]
  exact (index_eq_iff.mp rfl).2

/-- As many hours have passed as lead from the beginning of the month to an instant that is
not after the present one. -/
theorem wholeHours_bounds (t : Instant) :
    (start t).addSeconds (3600 * wholeHours t) ≤ t ∧
      t < (start t).addSeconds (3600 * (wholeHours t + 1)) := by
  have hhours := wholeHours_eq t
  have hnanos : (start t).nanos = 0 := rfl
  rw [Instant.lt_iff_not_le, Instant.le_iff, Instant.le_iff]
  simp only [Instant.addSeconds, hnanos]
  omega

theorem wholeHours_lt (h : (next? t).isSome) : wholeHours t < 24 * days t := by
  have hhours := wholeHours_eq t
  have hlt := lt_finish h
  rw [Instant.lt_iff_not_le, Instant.le_iff] at hlt
  have hnanos : (start t).nanos = 0 := rfl
  simp only [finish, Instant.addSeconds, hnanos] at hlt
  omega

theorem wholeHours_le (hmonth : start u = start t) (h : t ≤ u) : wholeHours t ≤ wholeHours u := by
  have hhours := wholeHours_eq t
  have hhours' := wholeHours_eq u
  have hseconds := Instant.seconds_le_of_le h
  rw [hmonth] at hhours'
  omega

/-- Hours are counted without an error, days have no more than 24 of them. -/
theorem hoursElapsed_eq (t : Instant) : hoursElapsed t = (wholeHours t).toFloat := by
  have hday : (24.0 : Float) = (24 : Nat).toFloat := by decide +kernel
  have hvalid : t.date.IsValid := Date.isValid_ofDayNumber t.dayNumber
  have hlength := Date.daysOfMonth_le t.date.year t.date.month
  have hlast := hvalid.2.2.2
  have hhour : t.hour < 24 := by
    unfold Instant.hour Instant.secondOfDay
    omega
  rw [hoursElapsed, hday, toFloat_mul (by omega) (by omega) (by omega), toFloat_add (by omega)]
  rfl

theorem days_le (t : Instant) : days t ≤ 31 := by
  by_cases h : (next? t).isSome
  · rw [days_eq h]
    exact Date.daysOfMonth_le _ _
  · unfold days
    rw [Option.not_isSome_iff_eq_none.mp h]
    exact Nat.le_succ 30

theorem fractionElapsed_eq (t : Instant) :
    fractionElapsed t = (wholeHours t).toFloat / (24 * days t).toFloat := by
  have hday : (24.0 : Float) = (24 : Nat).toFloat := by decide +kernel
  have hdays := days_le t
  rw [fractionElapsed, hoursElapsed_eq, hday, toFloat_mul (by omega) (by omega) (by omega),
    Nat.mul_comm]

/-- What is said of the month that an instant lies in: it begins at a midnight, on the first
day, and it ends where the next one begins; what lies in between has the same month, and the
hours that have passed are a part of those that the month has. -/
structure LiesInMonth (t : Instant) : Prop where
  within : start t ≤ t ∧ t < finish t
  begins : (start t).date = { t.date with day := 1 } ∧ (start t).secondOfDay = 0 ∧
    (start t).nanos = 0
  ends : next? t = some (finish t) ∧ (finish t).date = t.date.nextMonth ∧
    start (finish t) = finish t
  same : ∀ u, start u = start t ↔ start t ≤ u ∧ u < finish t
  sameDays : ∀ u, start t ≤ u → u < finish t → days u = days t
  inOrder : ∀ s, s ≤ t → start s ≤ start t
  hours : (start t).addSeconds (3600 * wholeHours t) ≤ t ∧
    t < (start t).addSeconds (3600 * (wholeHours t + 1))
  hoursBelow : wholeHours t < 24 * days t
  hoursInOrder : ∀ u, t ≤ u → u < finish t → wholeHours t ≤ wholeHours u
  elapsed : hoursElapsed t = (wholeHours t).toFloat ∧
    fractionElapsed t = (wholeHours t).toFloat / (24 * days t).toFloat
  fraction : (0 : ℚ) ≤ wholeHours t / (24 * days t : Nat) ∧
    (wholeHours t / (24 * days t : Nat) : ℚ) < 1

/-- Months tile the line of time. Every instant whose month ends in range lies in its month,
whose first instant and length are those of every instant in it, and which ends with the first
instant of the next one. The hours that have passed of it are counted by the clock. In a leap
second, in which the clock stands still, they are those of the second before. -/
theorem months_tile {t : Instant} (h : (next? t).isSome) : LiesInMonth t := by
  have hvalid : t.date.IsValid := Date.isValid_ofDayNumber t.dayNumber
  have hfinish := finish_eq_first h
  have hsame : ∀ u, start u = start t ↔ start t ≤ u ∧ u < finish t := fun u => by
    rw [start_eq_start_iff, index_eq_iff, start_eq_first, hfinish]
  have hbelow := wholeHours_lt h
  have hhours : ((24 * days t : Nat) : ℚ) > 0 := by exact_mod_cast Nat.zero_lt_of_lt hbelow
  refine
    { within := ⟨start_le t, lt_finish h⟩
      begins := ⟨?_, ?_, rfl⟩
      ends := ⟨?_, ?_, ?_⟩
      same := hsame
      sameDays := fun u hlow hhigh => ?_
      inOrder := fun s hs => start_mono hs
      hours := wholeHours_bounds t
      hoursBelow := hbelow
      hoursInOrder := fun u htu hhigh => ?_
      elapsed := ⟨hoursElapsed_eq t, fractionElapsed_eq t⟩
      fraction := ⟨?_, ?_⟩ }
  · rw [start_eq_first, date_first, index, hvalid.ofMonth_monthCount]
  · exact Int.mul_emod_right 86400 _
  · rw [next?_eq_some h, hfinish]
  · rw [hfinish, date_first, hvalid.nextMonth_eq, index]
  · rw [hfinish, start_eq_first, index_first]
  · exact days_eq_of_index (start_eq_start_iff.mp ((hsame u).mpr ⟨hlow, hhigh⟩))
  · exact wholeHours_le ((hsame u).mpr ⟨Instant.le_trans (start_le t) htu, hhigh⟩) htu
  · positivity
  · rw [div_lt_one hhours]
    exact_mod_cast hbelow

/-- The last morning of a leap year's February. -/
theorem february_tiles :
    let t := (Instant.ofDate ⟨2024, 2, 29⟩).addSeconds (5 * 3600)
    (next? t).isSome ∧ days t = 29 ∧ wholeHours t = 677 ∧ LiesInMonth t :=
  ⟨by decide, by decide, by decide, months_tile (by decide)⟩

end Month

end Chargeback
