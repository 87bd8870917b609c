import Chargeback.Time.Month

/-!
# Months in order

The month of a later time does not begin before that of an earlier one. The date of a day
is found from its number by way of its year in a cycle of 400 years, and of the day of that
year. From one day to the next the day of the year goes on by one, unless a year begins;
and with it the day of the month, unless a month begins.

## Main definitions

* `Date.yearOfCycle`, `Date.dayOfYear`, `Date.dayOfMonth`: the way to a date.
* `Date.marchYear`, `Date.dayOfMarchYear`: the year from March of a day, and its place in it.
* `Date.monthStart`: the number of the first day of a day's month.
* `Month.start_mono`: months begin in order.
-/

namespace Chargeback

namespace Date

/-- The year of a day within the cycle of 400 years. -/
def yearOfCycle (d : Int) : Int := (d - d / 1460 + d / 36524 - d / 146096) / 365

/-- How many days of its year have passed before a day of the cycle. -/
def dayOfYear (d : Int) : Int := d - daysBeforeYear (yearOfCycle d)

/-- The month of a day of the year, counted from March. -/
def monthOfYear (d : Int) : Int := (5 * d + 2) / 153

/-- How many days of its month have passed before a day of the year. -/
def dayOfMonth (d : Int) : Int := d - daysBeforeMonth (monthOfYear d)

/-- The year from March that a day lies in. -/
def marchYear (n : Int) : Int :=
  400 * ((n + 719468) / 146097) + yearOfCycle ((n + 719468) % 146097)

/-- How many days of its year from March have passed before a day. -/
def dayOfMarchYear (n : Int) : Int := dayOfYear ((n + 719468) % 146097)

/-- The number of the first day of a day's month. -/
def monthStart (n : Int) : Int := dayNumber { ofDayNumber n with day := 1 }

variable {d : Int}

/-! ## Years -/

theorem daysBeforeYear_succ (y : Int) :
    daysBeforeYear y + 365 ≤ daysBeforeYear (y + 1) ∧
      daysBeforeYear (y + 1) ≤ daysBeforeYear y + 366 ∧
      (y % 4 = 3 → y % 100 ≠ 99 ∨ y % 400 = 399 →
        daysBeforeYear (y + 1) = daysBeforeYear y + 366) := by
  unfold daysBeforeYear
  have hcentury : y % 100 = 99 ∨ (y + 1) / 100 = y / 100 := by omega
  refine ⟨?_, ?_, ?_⟩
  · omega
  · omega
  · intro hfourth hlast
    have hnext : (y + 1) / 4 = y / 4 + 1 := by omega
    omega

theorem daysBeforeYear_mono {x y : Int} (h : x ≤ y) : daysBeforeYear x ≤ daysBeforeYear y := by
  unfold daysBeforeYear
  omega

/-- Years of the cycle have their leap days as years of the calendar do. -/
theorem daysBeforeYear_cycle (c y : Int) :
    daysBeforeYear (400 * c + y) = 146097 * c + daysBeforeYear y := by
  unfold daysBeforeYear
  omega

/-- A day is given by its year from March and by the days of that year before it. -/
theorem day_eq (n : Int) : n + 719468 = daysBeforeYear (marchYear n) + dayOfMarchYear n := by
  rw [marchYear, dayOfMarchYear, daysBeforeYear_cycle, dayOfYear]
  omega

/-- Within a century of the cycle a year has its leap day at its end if it is a fourth one,
the last year of the century apart. The very last day of the cycle is not covered. -/
theorem yearOfCycle_of_century {k : Int} (hk : k = 0 ∨ k = 1 ∨ k = 2 ∨ k = 3)
    (hcentury : d / 36524 = k) (hlast : d / 146096 = 0) :
    yearOfCycle d / 100 = k ∧ daysBeforeYear (yearOfCycle d) ≤ d ∧
      d < daysBeforeYear (yearOfCycle d + 1) := by
  have hy : (d - d / 1460 + k) / 365 = yearOfCycle d := by
    rw [yearOfCycle, hcentury, hlast, Int.sub_zero]
  generalize yearOfCycle d = y at hy
  have hyear : y / 100 = k := by rcases hk with rfl | rfl | rfl | rfl <;> omega
  have hbounds : 365 * y + y / 4 - k ≤ d ∧ (d < 365 * y + y / 4 - k + 365 ∨
      (y % 4 = 3 ∧ d < 365 * y + y / 4 - k + 366 ∧ y ≠ 99 ∧ y ≠ 199 ∧ y ≠ 299)) := by
    have hleap : y / 4 ≤ d / 1460 ∨ d / 1460 < y / 4 := by omega
    rcases hk with rfl | rfl | rfl | rfl <;> rcases hleap with h | h <;> omega
  obtain ⟨hstep, -, hleap⟩ := daysBeforeYear_succ y
  have hstart : daysBeforeYear y = 365 * y + y / 4 - k := by
    unfold daysBeforeYear
    omega
  refine ⟨hyear, ?_, ?_⟩
  · omega
  · omega

theorem yearOfCycle_bounds (h : 0 ≤ d) (h' : d < 146097) :
    0 ≤ yearOfCycle d ∧ yearOfCycle d < 400 ∧
      daysBeforeYear (yearOfCycle d) ≤ d ∧ d < daysBeforeYear (yearOfCycle d + 1) := by
  by_cases hlast : d = 146096
  · subst hlast
    decide
  · have hk : d / 36524 = 0 ∨ d / 36524 = 1 ∨ d / 36524 = 2 ∨ d / 36524 = 3 := by omega
    obtain ⟨hyear, hle, hlt⟩ := yearOfCycle_of_century hk rfl (by omega)
    refine ⟨?_, ?_, hle, hlt⟩
    · omega
    · omega

theorem dayOfYear_bounds (h : 0 ≤ d) (h' : d < 146097) : 0 ≤ dayOfYear d ∧ dayOfYear d < 366 := by
  obtain ⟨-, -, hle, hlt⟩ := yearOfCycle_bounds h h'
  obtain ⟨-, hyear, -⟩ := daysBeforeYear_succ (yearOfCycle d)
  unfold dayOfYear
  omega

/-- From one day of the cycle to the next the day of the year goes on by one, or a year
begins. -/
theorem dayOfYear_succ (h : 0 ≤ d) (h' : d + 1 < 146097) :
    dayOfYear (d + 1) = dayOfYear d + 1 ∨ dayOfYear (d + 1) = 0 := by
  obtain ⟨-, -, hle, hlt⟩ := yearOfCycle_bounds h (by omega)
  obtain ⟨-, -, hle', hlt'⟩ := yearOfCycle_bounds (by omega : 0 ≤ d + 1) h'
  unfold dayOfYear
  rcases Int.lt_trichotomy (yearOfCycle (d + 1)) (yearOfCycle d) with hyear | hyear | hyear
  · have hmono := daysBeforeYear_mono (by omega : yearOfCycle (d + 1) + 1 ≤ yearOfCycle d)
    omega
  · rw [hyear]
    omega
  · have hmono := daysBeforeYear_mono (by omega : yearOfCycle d + 1 ≤ yearOfCycle (d + 1))
    omega

/-! ## Months -/

theorem monthOfYear_bounds (h : 0 ≤ d) (h' : d < 366) : 0 ≤ monthOfYear d ∧ monthOfYear d < 12 := by
  unfold monthOfYear
  omega

theorem dayOfMonth_nonneg (d : Int) : 0 ≤ dayOfMonth d := by
  unfold dayOfMonth daysBeforeMonth monthOfYear
  omega

/-- From one day of the year to the next the day of the month goes on by one, or a month
begins. -/
theorem dayOfMonth_succ (d : Int) :
    dayOfMonth (d + 1) = dayOfMonth d + 1 ∨ dayOfMonth (d + 1) = 0 := by
  unfold dayOfMonth daysBeforeMonth
  have hmonth : monthOfYear (d + 1) = monthOfYear d ∨
      monthOfYear (d + 1) = monthOfYear d + 1 ∧ 153 * monthOfYear (d + 1) ≤ 5 * (d + 1) + 2 ∧
        5 * d + 2 < 153 * monthOfYear (d + 1) := by
    unfold monthOfYear
    omega
  rcases hmonth with h | ⟨-, hle, hlt⟩
  · omega
  · omega

/-- The number of a day that is given by its year from March and its month from March. -/
theorem dayNumber_of_march {year month : Int} (h : 0 ≤ month) (h' : month < 12) (day : Nat) :
    dayNumber
        { year := if month < 10 then year else year + 1
          month := (if month < 10 then month + 3 else month - 9).toNat
          day } =
      daysBeforeYear year + daysBeforeMonth month + (day - 1) - 719468 := by
  unfold dayNumber
  by_cases hmonth : month < 10
  · have hlate : ¬(month + 3).toNat ≤ 2 := by omega
    have hback : ((month + 3).toNat : Int) - 3 = month := by omega
    simp only [hmonth, if_true, hlate, if_false, hback]
  · have hearly : (month - 9).toNat ≤ 2 := by omega
    have hback : ((month - 9).toNat : Int) + 9 = month := by omega
    simp only [hmonth, if_false, hearly, if_true, hback, Int.add_sub_cancel]

/-- The date of a day from its year and month from March: only the months from January on lie
in the year that follows. -/
theorem ofDayNumber_eq (n : Int) :
    ofDayNumber n =
      { year := if monthOfYear (dayOfMarchYear n) < 10 then marchYear n else marchYear n + 1
        month := (if monthOfYear (dayOfMarchYear n) < 10 then monthOfYear (dayOfMarchYear n) + 3
          else monthOfYear (dayOfMarchYear n) - 9).toNat
        day := (dayOfMonth (dayOfMarchYear n) + 1).toNat } := by
  unfold marchYear dayOfMarchYear
  generalize hcycle : (n + 719468) / 146097 = c
  generalize hday : (n + 719468) % 146097 = d
  obtain ⟨hyear, hyear', -, -⟩ := yearOfCycle_bounds (by omega : 0 ≤ d) (by omega)
  have hpassed : d - (365 * yearOfCycle d + yearOfCycle d / 4 - yearOfCycle d / 100) =
      dayOfYear d := by
    unfold dayOfYear daysBeforeYear
    omega
  rw [← hpassed]
  simp only [ofDayNumber, hcycle, hday]
  rfl

/-- A day of the same month, given by its number in it, is found from the days of the month
that have passed. -/
theorem dayNumber_of_day (n : Int) (k : Nat) :
    dayNumber { ofDayNumber n with day := k } =
      n - dayOfMonth (dayOfMarchYear n) + (k - 1) := by
  have hlow : 0 ≤ (n + 719468) % 146097 := by omega
  obtain ⟨hdoy, hdoy'⟩ : 0 ≤ dayOfMarchYear n ∧ dayOfMarchYear n < 366 :=
    dayOfYear_bounds hlow (by omega)
  obtain ⟨hmonth, hmonth'⟩ := monthOfYear_bounds hdoy hdoy'
  have hday := day_eq n
  rw [ofDayNumber_eq, dayNumber_of_march hmonth hmonth', dayOfMonth]
  omega

/-- The first day of a month lies as many days back as the day of the month says. -/
theorem monthStart_eq (n : Int) : monthStart n = n - dayOfMonth (dayOfMarchYear n) := by
  have hfirst := dayNumber_of_day n 1
  rw [monthStart, hfirst]
  omega

/-- From one day to the next the day of the month goes on by one, or a month begins. A cycle
ends with a month. -/
theorem dayOfMonth_of_succ (n : Int) :
    dayOfMonth (dayOfYear ((n + 1) % 146097)) ≤ dayOfMonth (dayOfYear (n % 146097)) + 1 := by
  have hzero : dayOfMonth 0 = 0 := rfl
  have hnonneg := dayOfMonth_nonneg (dayOfYear (n % 146097))
  by_cases hcycle : (n + 1) % 146097 = 0
  · rw [hcycle]
    exact Int.le_trans (by decide) (Int.add_le_add_right hnonneg 1)
  · have hnext : (n + 1) % 146097 = n % 146097 + 1 := by omega
    rw [hnext]
    rcases dayOfYear_succ (by omega : 0 ≤ n % 146097) (by omega) with hyear | hyear
    · rw [hyear]
      rcases dayOfMonth_succ (dayOfYear (n % 146097)) with hmonth | hmonth
      · omega
      · omega
    · rw [hyear]
      omega

theorem monthStart_le_succ (n : Int) : monthStart n ≤ monthStart (n + 1) := by
  have hstep := dayOfMonth_of_succ (n + 719468)
  rw [monthStart_eq, monthStart_eq, dayOfMarchYear, dayOfMarchYear, Int.add_right_comm]
  omega

theorem monthStart_mono {m n : Int} (h : m ≤ n) : monthStart m ≤ monthStart n := by
  obtain ⟨k, rfl⟩ := Int.le.dest h
  induction k with
  | zero => exact Int.le_of_eq (congrArg monthStart (Int.add_zero m).symm)
  | succ k ih =>
    rw [Int.natCast_succ, ← Int.add_assoc]
    exact Int.le_trans (ih (by omega)) (monthStart_le_succ (m + k))

end Date

theorem Instant.seconds_le_of_le {s t : Instant} (h : s ≤ t) : s.seconds ≤ t.seconds := by
  rw [Instant.le_iff] at h
  omega

/-- A month does not begin after an instant that lies in it. -/
theorem Month.start_le (t : Instant) : Month.start t ≤ t := by
  have hstart : (Month.start t).seconds = 86400 * Date.monthStart t.dayNumber := rfl
  have hnanos : (Month.start t).nanos = 0 := rfl
  have hday := Date.dayOfMonth_nonneg (Date.dayOfMarchYear t.dayNumber)
  have hmonth := Date.monthStart_eq t.dayNumber
  rw [Instant.le_iff, hstart, hnanos]
  unfold Instant.dayNumber at *
  omega

/-- Months begin in order. -/
theorem Month.start_mono {s t : Instant} (h : s ≤ t) : Month.start s ≤ Month.start t := by
  have hseconds := Instant.seconds_le_of_le h
  have hdays : s.dayNumber ≤ t.dayNumber := by
    unfold Instant.dayNumber
    omega
  have hstart : 86400 * Date.monthStart s.dayNumber ≤ 86400 * Date.monthStart t.dayNumber :=
    Int.mul_le_mul_of_nonneg_left (Date.monthStart_mono hdays) (by decide)
  rcases Int.lt_or_eq_of_le hstart with hlt | heq
  · exact .inl hlt
  · exact .inr ⟨heq, Nat.le_refl 0⟩

end Chargeback
