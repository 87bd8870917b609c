import Chargeback.Time.Date

/-!
# Instants

Points in time to the nanosecond, counted from the start of 1970 in universal
time, and the lengths between them. During a leap second the count of seconds
stands still and that of nanoseconds goes on past a full second.

## Main definitions

* `Instant`: seconds and nanoseconds.
* `Instant.inRange`: the instants of the years -262143 to 262142.
* `Instant.ofCount?`: the instant at a count of seconds and nanoseconds.
* `Instant.secondsSince`: whole seconds between two instants, truncated.
* `Instant.date`, `Instant.hour`: the calendar fields.
-/

namespace Chargeback

/-- Seconds since the start of 1970, and nanoseconds on top of them. -/
structure Instant where
  seconds : Int
  nanos : Nat := 0
deriving DecidableEq, Repr, Inhabited

namespace Instant

/-- One instant is not after another. -/
def le (a b : Instant) : Prop :=
  a.seconds < b.seconds ∨ (a.seconds = b.seconds ∧ a.nanos ≤ b.nanos)

instance : LE Instant := ⟨le⟩

instance : LT Instant := ⟨fun a b => ¬b ≤ a⟩

instance (a b : Instant) : Decidable (a ≤ b) :=
  inferInstanceAs (Decidable (_ ∨ _))

instance (a b : Instant) : Decidable (a < b) :=
  inferInstanceAs (Decidable (¬_))

theorem le_iff (a b : Instant) :
    a ≤ b ↔ a.seconds < b.seconds ∨ (a.seconds = b.seconds ∧ a.nanos ≤ b.nanos) := Iff.rfl

theorem lt_iff_not_le (a b : Instant) : a < b ↔ ¬b ≤ a := Iff.rfl

protected theorem le_trans {a b c : Instant} (h : a ≤ b) (h' : b ≤ c) : a ≤ c := by
  rw [le_iff] at h h' ⊢
  omega

/-- The later of two instants. -/
def later (a b : Instant) : Instant := if a ≤ b then b else a

/-- The earlier of two instants. -/
def earlier (a b : Instant) : Instant := if a ≤ b then a else b

theorem le_later_right (a b : Instant) : b ≤ a.later b := by
  unfold later
  split
  next => exact .inr ⟨rfl, Nat.le_refl _⟩
  next h =>
    rw [le_iff] at h ⊢
    omega

theorem earlier_le_left (a b : Instant) : a.earlier b ≤ a := by
  unfold earlier
  split
  next => exact .inr ⟨rfl, Nat.le_refl _⟩
  next h =>
    rw [le_iff] at h ⊢
    omega

/-- The first second of the years that instants can lie in. -/
def minSeconds : Int := -8334601228800

/-- The last second of the years that instants can lie in. -/
def maxSeconds : Int := 8210266876799

/-- The instant lies in the years -262143 to 262142. -/
def inRange (t : Instant) : Bool := minSeconds ≤ t.seconds && t.seconds ≤ maxSeconds

/-- The nanoseconds stay below a second, or below two seconds at the end of a minute,
where a leap second may stand. -/
def hasValidNanos (t : Instant) : Bool :=
  t.nanos < 1000000000 || (t.nanos < 2000000000 && t.seconds % 60 = 59)

/-- The instant at a count of seconds and nanoseconds, if there is one in range. -/
def ofCount? (seconds : Int) (nanos : Nat) : Option Instant :=
  let t : Instant := { seconds, nanos }
  if t.inRange && t.hasValidNanos then some t else none

/-! ## Calendar fields -/

/-- The number of the day. -/
def dayNumber (t : Instant) : Int := t.seconds / 86400

/-- The second of the day. -/
def secondOfDay (t : Instant) : Int := t.seconds % 86400

/-- The date. -/
def date (t : Instant) : Date := Date.ofDayNumber t.dayNumber

/-- The hour of the day. -/
def hour (t : Instant) : Nat := (t.secondOfDay / 3600).toNat

/-- The minute of the hour. -/
def minute (t : Instant) : Nat := (t.secondOfDay / 60 % 60).toNat

/-- The second of the minute. During a leap second it is the sixtieth. -/
def second (t : Instant) : Nat :=
  (t.secondOfDay % 60).toNat + if t.nanos < 1000000000 then 0 else 1

/-- The nanoseconds of the second. -/
def nanosOfSecond (t : Instant) : Nat := t.nanos % 1000000000

/-- The first instant of a date. -/
def ofDate (d : Date) : Instant := ⟨86400 * d.dayNumber, 0⟩

/-! ## Lengths of time -/

/-- The length from `b` to `a` in nanoseconds. A leap second that began before
the one and lies on the way to the other within a day counts as a second of its
own. -/
def nanosSince (a b : Instant) : Int :=
  let leap : Int :=
    if b.secondOfDay < a.secondOfDay && 1000000000 ≤ b.nanos then 1
    else if a.secondOfDay < b.secondOfDay && 1000000000 ≤ a.nanos then -1
    else 0
  (a.seconds - b.seconds + leap) * 1000000000 + ((a.nanos : Int) - b.nanos)

/-- Whole seconds from `b` to `a`, truncated toward zero. -/
def secondsSince (a b : Instant) : Int := (a.nanosSince b).tdiv 1000000000

/-- The instant that lies a number of seconds later. -/
def addSeconds (t : Instant) (n : Int) : Instant := { t with seconds := t.seconds + n }

end Instant

end Chargeback
