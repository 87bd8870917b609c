import Chargeback.Proofs.Time.Month

/-!
# Lengths of time within a month

Of a window that part is counted which lies between the start of the month and the present
time, in whole seconds. It grows as time goes on within the month, it is never longer than the
elapsed part of the month, and two windows that follow one another count as much as the one
from the beginning of the first to the end of the second, up to a second that is lost where
they meet.

Around leap seconds lengths of time do not add up: such a second counts for an interval that
begins or ends in it, depending on the hours of the day. Each end of an interval that lies in
a leap second therefore leaves one second open.

## Main definitions

* `Instant.position`, `Instant.openSeconds`: the place of an instant, and what it leaves open.
* `Month.nanosWithin`: how much of an interval lies in the elapsed part of the month.
* `Month.openAt`: what an end of an interval leaves open at a time.
* `Month.activeSeconds_laws`: what is counted of a window is bounded, grows and adds up.
-/

namespace Chargeback

/-! ## Lengths of time -/

namespace Instant

/-- The place of an instant in time, in nanoseconds from the start of 1970. -/
def position (t : Instant) : Int := t.seconds * 1000000000 + t.nanos

/-- How many seconds an instant leaves open: one if it lies in a leap second. -/
def openSeconds (t : Instant) : Nat := if t.nanos < 1000000000 then 0 else 1

variable {a b : Instant}

protected theorem le_antisymm (h : a ≤ b) (h' : b ≤ a) : a = b := by
  rw [le_iff] at h h'
  have hseconds : a.seconds = b.seconds := by omega
  have hnanos : a.nanos = b.nanos := by omega
  cases a
  cases b
  simp_all

theorem nanosSince_le (a b : Instant) :
    a.nanosSince b ≤ a.position - b.position + 1000000000 * b.openSeconds := by
  unfold nanosSince position openSeconds
  simp only [Bool.and_eq_true, decide_eq_true_eq]
  split <;> split <;> omega

theorem le_nanosSince (a b : Instant) :
    a.position - b.position - 1000000000 * a.openSeconds ≤ a.nanosSince b := by
  unfold nanosSince position openSeconds
  simp only [Bool.and_eq_true, decide_eq_true_eq]
  split <;> split <;> omega

end Instant

namespace Month

open Instant

/-- How many nanoseconds of an interval lie between the start of the month and `now`. -/
def nanosWithin (now : Instant) (interval : Instant × Instant) : Nat :=
  let first := interval.1.later (start now)
  let last := interval.2.earlier now
  if last ≤ first then 0 else (last.nanosSince first).toNat

/-- What is counted of a window are whole seconds of its time within the month. -/
theorem activeSeconds_le (begin : Instant) (finish : Option Instant) (now : Instant) :
    1000000000 * activeSeconds begin finish now ≤ nanosWithin now (begin, finish.getD now) := by
  unfold activeSeconds nanosWithin Instant.secondsSince
  dsimp only
  split
  next => simp
  next =>
    generalize ((finish.getD now).earlier now).nanosSince (begin.later (start now)) = n
    rcases Int.le_total 0 n with hn | hn
    · have hwhole := Int.mul_tdiv_self_le (k := 1000000000) hn
      omega
    · have hnone : n.tdiv 1000000000 ≤ Int.tdiv 0 1000000000 := Int.tdiv_le_tdiv (by decide) hn
      rw [Int.zero_tdiv] at hnone
      omega

variable {now b e : Instant}

/-- An instant before the month stands for the start of the month. -/
def clipped (now t : Instant) : Instant := t.later (start now)

theorem openSeconds_clipped_le (now t : Instant) : (clipped now t).openSeconds ≤ t.openSeconds := by
  unfold clipped later
  split
  · exact Nat.zero_le _
  · exact Nat.le_refl _

/-- An interval that is over lies before the month, or it is empty, or its length counts from
the start of the month on. -/
theorem nanosWithin_cases (hbe : b ≤ e) (hnow : e ≤ now) :
    (nanosWithin now (b, e) = 0 ∧ clipped now e = clipped now b) ∨
      (nanosWithin now (b, e) = (e.nanosSince (clipped now b)).toNat ∧ clipped now e = e) := by
  have hlast : e.earlier now = e := if_pos hnow
  unfold nanosWithin
  rw [hlast]
  change (ite (e ≤ clipped now b) _ _ = 0 ∧ _) ∨ (ite (e ≤ clipped now b) _ _ = _ ∧ _)
  by_cases hend : e ≤ clipped now b
  · rw [if_pos hend]
    refine .inl ⟨rfl, ?_⟩
    by_cases hb : b ≤ start now
    · have hclip : clipped now b = start now := if_pos hb
      rw [hclip] at hend ⊢
      exact if_pos hend
    · have hclip : clipped now b = b := if_neg hb
      rw [hclip] at hend
      rw [Instant.le_antisymm hend hbe]
  · rw [if_neg hend]
    refine .inr ⟨rfl, if_neg fun hearly => hend ?_⟩
    unfold clipped later
    split
    next => exact hearly
    next hb => exact absurd (Instant.le_trans hbe hearly) hb

theorem nanosWithin_le (hbe : b ≤ e) (hnow : e ≤ now) :
    nanosWithin now (b, e) = 0 ∨ (nanosWithin now (b, e) : Int) ≤
      (clipped now e).position - (clipped now b).position + 1000000000 * b.openSeconds := by
  rcases nanosWithin_cases hbe hnow with ⟨hnone, -⟩ | ⟨hlength, hend⟩
  · exact .inl hnone
  · have hle := nanosSince_le e (clipped now b)
    have hopen := openSeconds_clipped_le now b
    rw [hlength, hend]
    omega

theorem nanosWithin_of_le_start (h : e ≤ start now) : nanosWithin now (b, e) = 0 :=
  if_pos (Instant.le_trans (earlier_le_left e now)
    (Instant.le_trans h (le_later_right b (start now))))

theorem le_nanosWithin (hbe : b ≤ e) (hnow : e ≤ now) :
    (clipped now e).position - (clipped now b).position ≤
      nanosWithin now (b, e) + 1000000000 * e.openSeconds := by
  rcases nanosWithin_cases hbe hnow with ⟨-, hend⟩ | ⟨hlength, hend⟩
  · rw [hend]
    omega
  · have hle := le_nanosSince e (clipped now b)
    rw [hlength, hend]
    omega

end Month

/-! ## What is counted of a window -/

namespace Instant

variable {a b c : Instant}

protected theorem le_refl (a : Instant) : a ≤ a := .inr ⟨rfl, Nat.le_refl _⟩

protected theorem le_of_not_le (h : ¬a ≤ b) : b ≤ a := by
  rw [le_iff] at h ⊢
  omega

theorem le_later_left (a b : Instant) : a ≤ a.later b := by
  unfold later
  split
  next h => exact h
  next => exact Instant.le_refl a

theorem earlier_le_right (a b : Instant) : a.earlier b ≤ b := by
  unfold earlier
  split
  next h => exact h
  next => exact Instant.le_refl b

theorem earlier_of_le (h : a ≤ b) : a.earlier b = a := if_pos h

theorem earlier_of_not_le (h : ¬a ≤ b) : a.earlier b = b := if_neg h

theorem earlier_mono (h : a ≤ b) (c : Instant) : a.earlier c ≤ b.earlier c := by
  by_cases hb : b ≤ c
  · rw [earlier_of_le hb]
    exact Instant.le_trans (earlier_le_left a c) h
  · rw [earlier_of_not_le hb]
    exact earlier_le_right a c

theorem earlier_mono_right (c : Instant) (h : a ≤ b) : c.earlier a ≤ c.earlier b := by
  by_cases hc : c ≤ b
  · rw [earlier_of_le hc]
    exact earlier_le_left c a
  · rw [earlier_of_not_le hc]
    exact Instant.le_trans (earlier_le_right c a) h

theorem later_mono (h : a ≤ b) (c : Instant) : a.later c ≤ b.later c := by
  by_cases ha : a ≤ c
  · have hlater : a.later c = c := if_pos ha
    rw [hlater]
    exact le_later_right b c
  · have hlater : a.later c = a := if_neg ha
    rw [hlater]
    exact Instant.le_trans h (le_later_left b c)

theorem hasValidNanos_earlier (ha : a.hasValidNanos) (hb : b.hasValidNanos) :
    (a.earlier b).hasValidNanos := by
  unfold earlier
  split
  · exact ha
  · exact hb

theorem hasValidNanos_later (ha : a.hasValidNanos) (hb : b.hasValidNanos) :
    (a.later b).hasValidNanos := by
  unfold later
  split
  · exact hb
  · exact ha

theorem nanos_lt (h : a.hasValidNanos) : a.nanos < 2000000000 := by
  simp only [hasValidNanos, Bool.or_eq_true, Bool.and_eq_true, decide_eq_true_eq] at h
  omega

/-- Instants in order have places in order, but for a leap second that the first one lies in. -/
theorem position_le (ha : a.hasValidNanos) (h : a ≤ b) :
    a.position ≤ b.position + 1000000000 * a.openSeconds := by
  have hnanos := nanos_lt ha
  rw [le_iff] at h
  unfold position openSeconds
  split <;> omega

/-- From an instant to a later one less than a second can be missing. -/
theorem lt_nanosSince (ha : a.hasValidNanos) (hb : b.hasValidNanos) (h : b ≤ a) :
    -1000000000 < a.nanosSince b := by
  have hnanos := nanos_lt ha
  have hnanos' := nanos_lt hb
  rw [le_iff] at h
  unfold nanosSince secondOfDay
  simp only [Bool.and_eq_true, decide_eq_true_eq]
  split
  · omega
  · split <;> omega

/-- It takes no longer from an instant than from a full second before it. -/
theorem nanosSince_le_of_seconds_le (a : Instant) (h : c.seconds ≤ b.seconds) :
    a.nanosSince b ≤ (a.seconds - c.seconds) * 1000000000 + a.nanos := by
  unfold nanosSince
  simp only [Bool.and_eq_true, decide_eq_true_eq]
  split
  · omega
  · split <;> omega

end Instant

namespace Month

open Instant

variable {now now' b m e : Instant}

/-- A window that ends before it begins does not count. -/
theorem nanosWithin_of_earlier_le (h : e.earlier now ≤ b) : nanosWithin now (b, e) = 0 :=
  if_pos (Instant.le_trans h (le_later_left b (start now)))

/-- A window that has not begun does not count. -/
theorem nanosWithin_of_not_le (h : ¬b ≤ now) : nanosWithin now (b, e) = 0 :=
  nanosWithin_of_earlier_le
    (Instant.le_trans (earlier_le_right e now) (Instant.le_of_not_le h))

/-- Later in the month a window counts as far as it had been counted before if its ends are
put where they were seen. -/
theorem nanosWithin_earlier (b e : Instant) (hle : now ≤ now') (hmonth : start now = start now') :
    nanosWithin now (b, e) = nanosWithin now' (b.earlier now, e.earlier now) := by
  have hseen : (e.earlier now).earlier now' = e.earlier now :=
    earlier_of_le (Instant.le_trans (earlier_le_right e now) hle)
  by_cases hb : b ≤ now
  · unfold nanosWithin
    rw [hseen, earlier_of_le hb, hmonth]
  · rw [earlier_of_not_le hb, nanosWithin_of_not_le hb, nanosWithin_of_earlier_le]
    rw [hseen]
    exact earlier_le_right e now

theorem hasValidNanos_start (now : Instant) : (start now).hasValidNanos := rfl

/-- What is counted are the whole seconds of the time within the month. -/
theorem activeSeconds_eq {begin : Instant} (finish : Option Instant)
    (hb : begin.hasValidNanos) (he : (finish.getD now).hasValidNanos) (hnow : now.hasValidNanos) :
    activeSeconds begin finish now =
      (nanosWithin now (begin, finish.getD now) / 1000000000 : Nat) := by
  unfold activeSeconds nanosWithin Instant.secondsSince
  dsimp only
  split
  next => rfl
  next hlast =>
    have hlow := lt_nanosSince (hasValidNanos_earlier he hnow)
      (hasValidNanos_later hb (hasValidNanos_start now)) (Instant.le_of_not_le hlast)
    generalize ((finish.getD now).earlier now).nanosSince (begin.later (start now)) = n at hlow
    rcases Int.le_total 0 n with hn | hn
    · rw [Int.tdiv_eq_ediv_of_nonneg hn]
      omega
    · have hnone : n.tdiv 1000000000 = 0 := by
        rw [← Int.neg_neg n, Int.neg_tdiv, Int.tdiv_eq_zero_of_lt (by omega) (by omega)]
        rfl
      rw [hnone]
      omega

theorem secondsSince_start (now : Instant) :
    now.secondsSince (start now) =
      now.seconds - (start now).seconds + (now.nanos / 1000000000 : Nat) := by
  have hday : (start now).secondOfDay = 0 := Int.mul_emod_right 86400 _
  have hsecond : 0 ≤ now.secondOfDay := Int.emod_nonneg _ (by decide)
  have hnanos : (start now).nanos = 0 := rfl
  have hle := start_le now
  rw [le_iff, hnanos] at hle
  unfold Instant.secondsSince Instant.nanosSince
  rw [hday, hnanos, Int.tdiv_eq_ediv_of_nonneg]
  · simp
    omega
  · simp
    omega

/-- What an end of a window leaves open at `now`. An end that has not been reached yet stands
for `now`. -/
def openAt (now t : Instant) : Nat := (t.earlier now).openSeconds

theorem position_clipped_le (now : Instant) (hb : b.hasValidNanos) (h : b ≤ e) :
    (clipped now b).position ≤ (clipped now e).position + 1000000000 * b.openSeconds := by
  have hplace := position_le (hasValidNanos_later hb (hasValidNanos_start now))
    (later_mono h (start now))
  have hopen := openSeconds_clipped_le now b
  unfold clipped at hopen ⊢
  omega

/-- Two windows that follow one another have the length of both together. -/
theorem nanosWithin_add (hb : b.hasValidNanos) (hm : m.hasValidNanos) (hbm : b ≤ m) (hme : m ≤ e)
    (hnow : e ≤ now) :
    let slack := 1000000000 * (b.openSeconds + m.openSeconds + e.openSeconds)
    nanosWithin now (b, m) + nanosWithin now (m, e) ≤ nanosWithin now (b, e) + slack ∧
      nanosWithin now (b, e) ≤ nanosWithin now (b, m) + nanosWithin now (m, e) + slack := by
  have hbe := Instant.le_trans hbm hme
  have hmnow := Instant.le_trans hme hnow
  have hplace := position_clipped_le now hb hbm
  have hplace' := position_clipped_le now hm hme
  have hlow := le_nanosWithin hbm hmnow
  have hlow' := le_nanosWithin hme hnow
  have hlow'' := le_nanosWithin hbe hnow
  refine ⟨?_, ?_⟩
  · rcases nanosWithin_le hbm hmnow with hhigh | hhigh <;>
      rcases nanosWithin_le hme hnow with hhigh' | hhigh' <;> omega
  · rcases nanosWithin_le hbe hnow with hhigh | hhigh <;> omega

/-- A window that ends later is longer. -/
theorem nanosWithin_le_of_le {e' : Instant} (hb : b.hasValidNanos) (he : e.hasValidNanos)
    (hle : e ≤ e') (hnow : e' ≤ now) :
    nanosWithin now (b, e) ≤ nanosWithin now (b, e') +
      1000000000 * (b.openSeconds + e.openSeconds + e'.openSeconds) := by
  by_cases hbe : b ≤ e
  · have hadd := (nanosWithin_add hb he hbe hle hnow).1
    omega
  · have hnone : nanosWithin now (b, e) = 0 := nanosWithin_of_earlier_le
      (Instant.le_trans (earlier_le_left e now) (Instant.le_of_not_le hbe))
    omega

/-! ## Whole seconds -/

section WholeSeconds

variable {begin : Instant} {finish : Option Instant}

theorem hasValidNanos_getD (hfinish : ∀ e ∈ finish, e.hasValidNanos) (hnow : now.hasValidNanos) :
    (finish.getD now).hasValidNanos := by
  cases finish with
  | none => exact hnow
  | some e => exact hfinish e rfl

/-- No more is counted than has passed of the month. -/
theorem activeSeconds_le_elapsed (hbegin : begin.hasValidNanos)
    (hend : (finish.getD now).hasValidNanos) (hnow : now.hasValidNanos) :
    activeSeconds begin finish now ≤ now.secondsSince (start now) := by
  have hmonth := start_le now
  have hfirst := le_later_right begin (start now)
  have hlast := earlier_le_right (finish.getD now) now
  have hnanos := nanos_lt (hasValidNanos_earlier hend hnow)
  have hlength := nanosSince_le_of_seconds_le ((finish.getD now).earlier now)
    (seconds_le_of_le hfirst)
  rw [activeSeconds_eq finish hbegin hend hnow, secondsSince_start]
  rw [le_iff] at hmonth hlast
  unfold nanosWithin
  dsimp only
  split
  · omega
  · omega

/-- What is counted of a window does not become less later in the month. -/
theorem activeSeconds_le_later (hbegin : begin.hasValidNanos)
    (hfinish : ∀ e ∈ finish, e.hasValidNanos) (hnow : now.hasValidNanos)
    (hnow' : now'.hasValidNanos) (hle : now ≤ now') (hmonth : start now = start now') :
    activeSeconds begin finish now ≤ activeSeconds begin finish now' +
      (openAt now begin + openAt now (finish.getD now) + openAt now' (finish.getD now') : Nat) := by
  have hend := hasValidNanos_getD hfinish hnow
  have hend' := hasValidNanos_getD hfinish hnow'
  have hlater : finish.getD now ≤ finish.getD now' := by
    cases finish with
    | none => exact hle
    | some e => exact Instant.le_refl e
  rw [activeSeconds_eq finish hbegin hend hnow, activeSeconds_eq finish hbegin hend' hnow']
  by_cases hb : begin ≤ now
  · have hseen : begin.earlier now = begin := earlier_of_le hb
    have hseen' : begin.earlier now' = begin := earlier_of_le (Instant.le_trans hb hle)
    have hlonger := nanosWithin_le_of_le hbegin (hasValidNanos_earlier hend hnow)
      (Instant.le_trans (earlier_mono hlater now) (earlier_mono_right (finish.getD now') hle))
      (earlier_le_right (finish.getD now') now')
    have hcounted := nanosWithin_earlier begin (finish.getD now) hle hmonth
    have hcounted' := nanosWithin_earlier begin (finish.getD now') (Instant.le_refl now') rfl
    rw [hseen] at hcounted
    rw [hseen'] at hcounted'
    unfold openAt
    rw [hcounted, hcounted', hseen]
    omega
  · rw [nanosWithin_of_not_le hb]
    omega

/-- Windows that follow one another count together as much as one. A second is lost where they
meet if neither of them has the whole of it. -/
theorem activeSeconds_add (hb : b.hasValidNanos) (hm : m.hasValidNanos) (he : e.hasValidNanos)
    (hnow : now.hasValidNanos) (hbm : b ≤ m) (hme : m ≤ e) :
    let slack : Nat := openAt now b + openAt now m + openAt now e
    activeSeconds b (some m) now + activeSeconds m (some e) now ≤
        activeSeconds b (some e) now + slack ∧
      activeSeconds b (some e) now ≤
        activeSeconds b (some m) now + activeSeconds m (some e) now + 1 + slack := by
  have hadd := nanosWithin_add (hasValidNanos_earlier hb hnow) (hasValidNanos_earlier hm hnow)
    (earlier_mono hbm now) (earlier_mono hme now) (earlier_le_right e now)
  have hcounted {s t : Instant} (hs : s.hasValidNanos) (ht : t.hasValidNanos) :
      activeSeconds s (some t) now =
        (nanosWithin now (s.earlier now, t.earlier now) / 1000000000 : Nat) := by
    rw [activeSeconds_eq (some t) hs ht hnow, Option.getD_some,
      nanosWithin_earlier s t (Instant.le_refl now) rfl]
  rw [hcounted hb hm, hcounted hm he, hcounted hb he]
  unfold openAt
  dsimp only at hadd ⊢
  omega

/-- The whole seconds that are counted of a window at two times of one month. They are not below
zero and not above those that have passed of the month; they do not become less; and windows
that follow one another count together as much as one, or a second less. Every end that lies in
a leap second leaves one second open in the last two of these laws. -/
theorem activeSeconds_laws
    (hbegin : begin.hasValidNanos) (hfinish : ∀ e ∈ finish, e.hasValidNanos)
    (hnow : now.hasValidNanos) (hnow' : now'.hasValidNanos) (hle : now ≤ now')
    (hmonth : now.date.year = now'.date.year ∧ now.date.month = now'.date.month) :
    (0 ≤ activeSeconds begin finish now ∧
      activeSeconds begin finish now ≤ now.secondsSince (start now)) ∧
    activeSeconds begin finish now ≤ activeSeconds begin finish now' +
      (openAt now begin + openAt now (finish.getD now) + openAt now' (finish.getD now') : Nat) ∧
    ∀ e ∈ finish, ∀ m, m.hasValidNanos → begin ≤ m → m ≤ e →
      let slack : Nat := openAt now begin + openAt now m + openAt now e
      activeSeconds begin (some m) now + activeSeconds m (some e) now ≤
          activeSeconds begin (some e) now + slack ∧
        activeSeconds begin (some e) now ≤
          activeSeconds begin (some m) now + activeSeconds m (some e) now + 1 + slack := by
  have hstart : start now = start now' := by simp only [start, hmonth.1, hmonth.2]
  have hend := hasValidNanos_getD hfinish hnow
  refine ⟨⟨?_, activeSeconds_le_elapsed hbegin hend hnow⟩,
    activeSeconds_le_later hbegin hfinish hnow hnow' hle hstart, fun e he m hm hbm hme => ?_⟩
  · rw [activeSeconds_eq finish hbegin hend hnow]
    exact Int.natCast_nonneg _
  · exact activeSeconds_add hbegin hm (hfinish e he) hnow hbm hme

/-- An instant of June 2024, by its day, its time and its nanoseconds. -/
def june (day hour minute second nanos : Nat) : Instant :=
  { (ofDate { year := 2024, month := 6, day }).addSeconds (3600 * hour + 60 * minute + second) with
    nanos }

/-- Without what is left open the laws do not hold. A window that begins in a leap second counts
less at midnight than just before it. Two windows that meet in a leap second count it twice. Of
three windows the longest, which begins in a leap second and ends at a later hour, counts that
second, and those that meet at midnight do not. -/
theorem activeSeconds_around_leap_seconds :
    let leap := june 1 12 30 59
    let morning := june 2 0 0 0
    let later := june 3 0 0 0 0
    ((leap 1500000000).hasValidNanos ∧ (leap 1000000000).hasValidNanos ∧
      (leap 1950000000).hasValidNanos) ∧
    (june 1 23 59 59 900000000 ≤ morning 0 ∧
      start (june 1 23 59 59 900000000) = start (morning 0) ∧
      ¬activeSeconds (leap 1500000000) none (june 1 23 59 59 900000000) ≤
        activeSeconds (leap 1500000000) none (morning 0)) ∧
    (june 1 12 30 0 0 ≤ leap 1000000000 ∧ leap 1000000000 ≤ june 1 12 31 30 0 ∧
      ¬activeSeconds (june 1 12 30 0 0) (some (leap 1000000000)) later +
          activeSeconds (leap 1000000000) (some (june 1 12 31 30 0)) later ≤
        activeSeconds (june 1 12 30 0 0) (some (june 1 12 31 30 0)) later) ∧
    (leap 1950000000 ≤ morning 900000000 ∧ morning 900000000 ≤ june 2 12 59 59 800000000 ∧
      ¬activeSeconds (leap 1950000000) (some (june 2 12 59 59 800000000)) later ≤
        activeSeconds (leap 1950000000) (some (morning 900000000)) later +
          activeSeconds (morning 900000000) (some (june 2 12 59 59 800000000)) later + 1) := by
  decide +kernel

/-- A window from May on, of which the first of June is counted. -/
theorem activeSeconds_laws_in_june :
    let begin := Instant.ofDate { year := 2024, month := 5, day := 20 }
    let now := june 2 0 0 0 0
    let now' := june 2 12 30 0 500000000
    let e := june 2 1 0 0 0
    let m := june 1 9 0 0 250000000
    (begin.hasValidNanos ∧ (∀ e' ∈ some e, e'.hasValidNanos) ∧ now.hasValidNanos ∧
      now'.hasValidNanos ∧ now ≤ now' ∧
      (now.date.year = now'.date.year ∧ now.date.month = now'.date.month)) ∧
    activeSeconds begin (some e) now ≤ activeSeconds begin (some e) now' ∧
    activeSeconds begin (some e) now' = 90000 ∧
    activeSeconds begin (some m) now + activeSeconds m (some e) now ≤
      activeSeconds begin (some e) now := by
  intro begin now now' e m
  have hfinish : ∀ e' ∈ some e, e'.hasValidNanos := by
    rintro _ ⟨⟩
    decide
  have hbegin : begin.hasValidNanos := by decide
  have hnow : now.hasValidNanos ∧ now'.hasValidNanos := by decide
  have hle : now ≤ now' := by decide +kernel
  have hmonth : now.date.year = now'.date.year ∧ now.date.month = now'.date.month := by
    decide +kernel
  obtain ⟨-, hlater, hadd⟩ := activeSeconds_laws hbegin hfinish hnow.1 hnow.2 hle hmonth
  have hopen : openAt now begin + openAt now (Option.getD (some e) now) +
      openAt now' (Option.getD (some e) now') = 0 := by decide +kernel
  have hopen' : openAt now begin + openAt now m + openAt now e = 0 := by decide +kernel
  obtain ⟨htogether, -⟩ := hadd e rfl m (by decide) (by decide +kernel) (by decide +kernel)
  rw [hopen] at hlater
  rw [hopen'] at htogether
  exact ⟨⟨hbegin, hfinish, hnow.1, hnow.2, hle, hmonth⟩,
    by simpa using hlater, by decide +kernel, by simpa using htogether⟩

end WholeSeconds

end Month

end Chargeback
