import Chargeback.Proofs.Time.Month

/-!
# Dates of days

The date that is found for a day exists, and it is the date of that day. The way to it leads
by a year that starts in March, whose months have the lengths of those of the calendar: the
leap day is at the end of the year before.

## Main definitions

* `Date.isValid_ofDayNumber`, `Date.dayNumber_ofDayNumber`: the date exists and gives the day.
* `Date.dayNumber_bounds`: the days of the years 0 to 9999.
-/

namespace Chargeback

namespace Date

/-- A year from March ends with the leap day of the year that follows. -/
theorem daysBeforeYear_add_one (y : Int) :
    daysBeforeYear (y + 1) =
      daysBeforeYear y + 365 + if isLeapYear (y + 1) then 1 else 0 := by
  unfold daysBeforeYear
  have hleap : isLeapYear (y + 1) = true ↔
      (y + 1) % 4 = 0 ∧ ((y + 1) % 100 ≠ 0 ∨ (y + 1) % 400 = 0) := by
    simp [isLeapYear]
  by_cases h : isLeapYear (y + 1) = true
  · rw [if_pos h]
    have hyear := hleap.1 h
    omega
  · rw [if_neg h]
    rw [hleap] at h
    omega

/-- No more days of a year have passed than it has. -/
theorem dayOfMarchYear_bounds (n : Int) :
    0 ≤ dayOfMarchYear n ∧
      dayOfMarchYear n < 365 + if isLeapYear (marchYear n + 1) then 1 else 0 := by
  have hlow : 0 ≤ (n + 719468) % 146097 := by omega
  obtain ⟨-, -, hle, hlt⟩ := yearOfCycle_bounds hlow (by omega)
  have hday := day_eq n
  have hnext := daysBeforeYear_add_one (marchYear n)
  have hcycle := daysBeforeYear_cycle ((n + 719468) / 146097)
    (yearOfCycle ((n + 719468) % 146097) + 1)
  rw [← Int.add_assoc, ← marchYear] at hcycle
  refine ⟨?_, ?_⟩
  · unfold dayOfMarchYear dayOfYear
    omega
  · omega

/-- A month from March is as long as the month of the calendar that it is. -/
theorem dayOfMonth_lt {y d : Int} (h : 0 ≤ d)
    (h' : d < 365 + if isLeapYear (y + 1) then 1 else 0) :
    dayOfMonth d < daysOfMonth (if monthOfYear d < 10 then y else y + 1)
      (if monthOfYear d < 10 then monthOfYear d + 3 else monthOfYear d - 9).toNat := by
  have hmonth : 153 * monthOfYear d ≤ 5 * d + 2 ∧ 5 * d + 2 < 153 * monthOfYear d + 153 := by
    unfold monthOfYear
    omega
  unfold dayOfMonth daysBeforeMonth
  generalize monthOfYear d = m at hmonth ⊢
  by_cases hlast : m = 11
  · subst hlast
    simp only [daysOfMonth]
    split at h' <;> simp_all <;> omega
  · have hlength : m = 0 ∨ m = 1 ∨ m = 2 ∨ m = 3 ∨ m = 4 ∨ m = 5 ∨ m = 6 ∨ m = 7 ∨ m = 8 ∨
        m = 9 ∨ m = 10 := by
      split at h' <;> omega
    rcases hlength with rfl | rfl | rfl | rfl | rfl | rfl | rfl | rfl | rfl | rfl | rfl <;>
      simp [daysOfMonth] <;> omega

theorem daysOfMonth_le (year : Int) (month : Nat) : daysOfMonth year month ≤ 31 := by
  unfold daysOfMonth
  split
  · split <;> decide
  · split <;> decide

theorem isValid_ofDayNumber (n : Int) : (ofDayNumber n).IsValid := by
  obtain ⟨hday, hday'⟩ := dayOfMarchYear_bounds n
  have hlength := dayOfMonth_lt hday hday'
  have hmonth : 0 ≤ monthOfYear (dayOfMarchYear n) ∧ monthOfYear (dayOfMarchYear n) < 12 :=
    monthOfYear_bounds hday (by split at hday' <;> omega)
  have hnonneg := dayOfMonth_nonneg (dayOfMarchYear n)
  rw [ofDayNumber_eq]
  refine ⟨?_, ?_, ?_, ?_⟩
  · dsimp only
    split <;> omega
  · dsimp only
    split <;> omega
  · dsimp only
    omega
  · dsimp only
    omega

theorem dayNumber_ofDayNumber (n : Int) : dayNumber (ofDayNumber n) = n := by
  have hday : dayNumber (ofDayNumber n) =
      n - dayOfMonth (dayOfMarchYear n) + ((ofDayNumber n).day - 1) :=
    dayNumber_of_day n (ofDayNumber n).day
  have hplace : ((ofDayNumber n).day : Int) = dayOfMonth (dayOfMarchYear n) + 1 := by
    have hnonneg := dayOfMonth_nonneg (dayOfMarchYear n)
    rw [ofDayNumber_eq]
    dsimp only
    omega
  rw [hplace] at hday
  omega

/-- The years 0 to 9999 lie between the day numbers minus a million and four millions. -/
theorem dayNumber_bounds {n : Int} (h : 0 ≤ (ofDayNumber n).year)
    (h' : (ofDayNumber n).year ≤ 9999) : -1000000 < n ∧ n < 4000000 := by
  have hday := day_eq n
  obtain ⟨hlow, hhigh⟩ := dayOfMarchYear_bounds n
  have hyear : -1 ≤ marchYear n ∧ marchYear n ≤ 9999 := by
    rw [ofDayNumber_eq] at h h'
    dsimp only at h h'
    split at h <;> split at h' <;> omega
  unfold daysBeforeYear at hday
  split at hhigh <;> omega

end Date

end Chargeback
