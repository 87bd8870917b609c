import Chargeback.Proofs.Decimal.Digits
import Chargeback.Proofs.Time.Calendar
import Chargeback.Time.Rfc3339

/-!
# Written instants are read back

The text of an instant of the years 0 to 9999 stands for the same instant, to the nanosecond.
The parts of the text have fixed widths, so each of them is read without a look at what comes
behind it; only the digits of a second end where the mark of universal time begins.

## Main definitions

* `Instant.Plain`: the instants of the years 0 to 9999 outside leap seconds.
* `Instant.ofFields?_fields`: the fields of an instant give the instant.
* `Instant.read?_write`: its text is read back.
-/

namespace Chargeback

namespace Text

theorem trimLeft_of_not_isBlank {c : Char} (h : isBlank c = false) (s : List Char) :
    trimLeft (c :: s) = c :: s := by
  rw [trimLeft, List.dropWhile_cons, h]
  rfl

theorem isBlank_of_isDigit {c : Char} (h : c.isDigit = true) : isBlank c = false := by
  simp only [Char.isDigit, Bool.and_eq_true, decide_eq_true_eq, ge_iff_le, UInt32.le_iff_toNat_le]
    at h
  have hlow : 48 ≤ c.toNat := h.1
  have hhigh : c.toNat ≤ 57 := h.2
  simp only [isBlank, blankRanges, List.any_cons, List.any_nil, Bool.or_false,
    Bool.or_eq_false_iff, Bool.and_eq_false_iff, decide_eq_false_iff_not]
  omega

end Text

namespace Instant

/-! ## Numbers of a fixed width -/

theorem all_isDigit_padded (width n : Nat) : ∀ c ∈ padded width n, c.isDigit = true := by
  intro c hc
  rcases List.mem_append.1 hc with hc | hc
  · rw [(List.mem_replicate.1 hc).2]
    rfl
  · exact Decimal.all_isDigit_digits n c hc

theorem value_padded (width n : Nat) : Decimal.value (padded width n) = n := by
  have hzeros : ∀ k, Decimal.valueFrom 0 (List.replicate k '0') = 0 := by
    intro k
    induction k with
    | zero => rfl
    | succ k ih => exact ih
  rw [padded, Decimal.value, Decimal.valueFrom_append, hzeros]
  exact Decimal.value_digits n

section Padded

variable {width n : Nat}

theorem length_padded (h : n < Nat.pow 10 (width + 1)) :
    (padded (width + 1) n).length = width + 1 := by
  have hdigits := Decimal.length_digits_le h
  rw [padded, List.length_append, List.length_replicate]
  omega

theorem padded_eq_cons (h : n < Nat.pow 10 (width + 1)) :
    ∃ c ds, padded (width + 1) n = c :: ds ∧ c.isDigit = true := by
  obtain ⟨c, ds, hds⟩ := List.exists_cons_of_length_eq_add_one (length_padded h)
  exact ⟨c, ds, hds, all_isDigit_padded (width + 1) n c (by rw [hds]; exact List.mem_cons_self)⟩

theorem isEmpty_padded (h : n < Nat.pow 10 (width + 1)) :
    (padded (width + 1) n).isEmpty = false := by
  obtain ⟨c, ds, hds, -⟩ := padded_eq_cons h
  rw [hds]
  rfl

/-- A number that fills its width is read, whatever comes behind it. -/
theorem readNumber_padded (h : n < Nat.pow 10 (width + 1)) (rest : List Char) :
    readNumber (width + 1) (padded (width + 1) n ++ rest) = some (n, rest) := by
  have hlength := length_padded h
  have htrim : Text.trimLeft (padded (width + 1) n ++ rest) = padded (width + 1) n ++ rest := by
    obtain ⟨c, ds, hds, hc⟩ := padded_eq_cons h
    rw [hds, List.cons_append, Text.trimLeft_of_not_isBlank (Text.isBlank_of_isDigit hc)]
  have htake : ((padded (width + 1) n ++ rest).take (width + 1)).takeWhile Char.isDigit =
      padded (width + 1) n := by
    have hrow : (padded (width + 1) n ++ []).takeWhile Char.isDigit = padded (width + 1) n ++ [] :=
      List.takeWhile_append_of_pos (all_isDigit_padded (width + 1) n)
    rw [List.append_nil] at hrow
    rw [List.take_left' hlength, hrow]
  simp only [readNumber, htrim, htake, isEmpty_padded h, value_padded, List.drop_left, Bool.false_eq_true,
    if_false]

/-- A year of four digits has no sign. -/
theorem readYear_padded (h : n < 10000) (rest : List Char) :
    readYear (padded 4 n ++ rest) = some ((n : Int), rest) := by
  have hread : readNumber 4 (padded 4 n ++ rest) = some (n, rest) := readNumber_padded h rest
  obtain ⟨c, ds, hds, hc⟩ : ∃ c ds, padded 4 n = c :: ds ∧ c.isDigit = true := padded_eq_cons h
  rw [hds, List.cons_append] at hread ⊢
  rw [readYear, Text.trimLeft_of_not_isBlank (Text.isBlank_of_isDigit hc)]
  dsimp only
  split
  next heq => cases heq; cases hc
  next heq => cases heq; cases hc
  next => rw [hread]; rfl

/-- The digits behind the point of a second are so many nanoseconds as they say. -/
theorem readFraction_padded (h : n < Nat.pow 10 (width + 1)) (hwidth : width < 9)
    {rest : List Char} (hrest : Decimal.NoDigit rest) :
    readFraction ('.' :: padded (width + 1) n ++ rest) =
      some (n * Nat.pow 10 (8 - width), rest) := by
  have hspan := Decimal.spanDigits_append (all_isDigit_padded (width + 1) n) hrest
  have hlength := length_padded h
  have htake : (padded (width + 1) n).take 9 = padded (width + 1) n :=
    List.take_of_length_le (by omega)
  have hplaces : 9 - (width + 1) = 8 - width := by omega
  rw [List.cons_append, readFraction]
  simp only [hspan, isEmpty_padded h, htake, value_padded, hlength, hplaces, Bool.false_eq_true, if_false]

end Padded

/-! ## Texts -/

/-- An instant of the years 0 to 9999 that is not within a leap second. -/
def Plain (t : Instant) : Prop :=
  0 ≤ t.date.year ∧ t.date.year ≤ 9999 ∧ t.nanos < 1000000000

instance (t : Instant) : Decidable t.Plain := by unfold Plain; infer_instance

theorem readSeparator_cons {c : Char} (h : Text.isBlank c = false) (rest : List Char) :
    readSeparator c (c :: rest) = some rest := by
  rw [readSeparator, Text.trimLeft_of_not_isBlank h]
  exact if_pos rfl

/-- As many digits of a second are written as are needed, and they are read back. -/
theorem readFraction_writeFraction {nanos : Nat} (h : nanos < 1000000000) {rest : List Char}
    (hrest : Decimal.NoDigit rest) (hpoint : ∀ s, rest ≠ '.' :: s) :
    readFraction (writeFraction nanos ++ rest) = some (nanos, rest) := by
  unfold writeFraction
  split
  next hnone =>
    rw [List.nil_append, hnone]
    unfold readFraction
    split
    next => exact absurd rfl (hpoint _)
    next => rfl
  split
  next hthree =>
    have hbound : nanos / 1000000 < Nat.pow 10 3 := by
      change nanos / 1000000 < 1000
      omega
    have hvalue : nanos / 1000000 * Nat.pow 10 6 = nanos := by
      change nanos / 1000000 * 1000000 = nanos
      omega
    rw [readFraction_padded hbound (by decide) hrest, hvalue]
  split
  next hsix =>
    have hbound : nanos / 1000 < Nat.pow 10 6 := by
      change nanos / 1000 < 1000000
      omega
    have hvalue : nanos / 1000 * Nat.pow 10 3 = nanos := by
      change nanos / 1000 * 1000 = nanos
      omega
    rw [readFraction_padded hbound (by decide) hrest, hvalue]
  next =>
    have hbound : nanos < Nat.pow 10 9 := h
    have hvalue : nanos * Nat.pow 10 0 = nanos := Nat.mul_one nanos
    rw [readFraction_padded hbound (by decide) hrest, hvalue]

/-- The fields of an instant give the instant. -/
theorem ofFields?_fields {t : Instant} (h : t.Plain) :
    ofFields? t.date t.hour t.minute t.second t.nanosOfSecond 0 = some t := by
  obtain ⟨hyear, hyear', hnanos⟩ := h
  have hdays : -1000000 < t.dayNumber ∧ t.dayNumber < 4000000 := Date.dayNumber_bounds hyear hyear'
  have hday : t.date.dayNumber = t.dayNumber := Date.dayNumber_ofDayNumber t.dayNumber
  have hsecond : t.second = (t.seconds % 86400 % 60).toNat := by
    rw [second, if_pos hnanos]
    rfl
  have hfields : t.date.IsValid ∧ t.hour < 24 ∧ t.minute < 60 ∧ t.second ≤ 60 ∧
      (-86400 : Int) < 0 ∧ (0 : Int) < 86400 := by
    refine ⟨Date.isValid_ofDayNumber t.dayNumber, ?_, ?_, ?_, by decide, by decide⟩
    · unfold hour secondOfDay
      omega
    · unfold minute secondOfDay
      omega
    · omega
  have hnoleap : t.second ≠ 60 := by omega
  have hseconds : 86400 * t.dayNumber + (3600 * (t.hour : Int) + 60 * t.minute + t.second) =
      t.seconds := by
    unfold dayNumber hour minute secondOfDay at *
    omega
  have hinstant : (⟨t.seconds, t.nanos⟩ : Instant).addSeconds (-0) = t := by
    rw [addSeconds]
    simp
  have hrange : t.inRange = true := by
    have hbounds : minSeconds ≤ t.seconds ∧ t.seconds ≤ maxSeconds := by
      unfold dayNumber at hdays
      unfold minSeconds maxSeconds
      omega
    rw [inRange, decide_eq_true hbounds.1, decide_eq_true hbounds.2]
    rfl
  have hrest : t.nanosOfSecond = t.nanos := Nat.mod_eq_of_lt hnanos
  simp only [ofFields?, if_pos hfields, if_neg hnoleap, hday, hseconds, hrest, hinstant, hrange,
    Bool.and_self, if_true]

/-- The text of a plain instant is read back. -/
theorem read?_write {t : Instant} (h : t.Plain) : read? t.write = some t := by
  obtain ⟨hmonth, hmonth', -, hday'⟩ : t.date.IsValid := Date.isValid_ofDayNumber t.dayNumber
  have hyear : (t.date.year.toNat : Int) = t.date.year := Int.toNat_of_nonneg h.1
  have hfour : t.date.year.toNat < 10000 := by
    have hlast := h.2.1
    omega
  have hlength : Date.daysOfMonth t.date.year t.date.month ≤ 31 := Date.daysOfMonth_le _ _
  have hfields : t.hour < 100 ∧ t.minute < 100 ∧ t.second < 100 := by
    have hnanos := h.2.2
    unfold hour minute second secondOfDay
    rw [if_pos hnanos]
    omega
  have htext : t.write.toList =
      padded 4 t.date.year.toNat ++ ('-' :: (padded 2 t.date.month ++ ('-' ::
        (padded 2 t.date.day ++ ('T' :: (padded 2 t.hour ++ (':' :: (padded 2 t.minute ++
          (':' :: (padded 2 t.second ++ (writeFraction t.nanosOfSecond ++ ['Z']))))))))))) := by
    rw [write, String.toList_ofList, writeDateTime, writeYear, decide_eq_true h.1,
      decide_eq_true h.2.1]
    simp only [Bool.and_self, if_true, List.append_assoc, List.cons_append]
  have hnanos : readFraction (writeFraction t.nanosOfSecond ++ ['Z']) =
      some (t.nanosOfSecond, ['Z']) :=
    readFraction_writeFraction (Nat.mod_lt _ (by decide)) (Decimal.noDigit_cons rfl)
      (fun s heq => by cases heq)
  have hzone : readOffset ['Z'] = some (0, []) := rfl
  have htwo : ∀ {n : Nat}, n < 100 → ∀ rest,
      readNumber 2 (padded 2 n ++ rest) = some (n, rest) :=
    fun hn rest => readNumber_padded hn rest
  simp only [read?, htext, readYear_padded hfour,
    readSeparator_cons (by decide : Text.isBlank '-' = false),
    readSeparator_cons (by decide : Text.isBlank ':' = false),
    htwo (by omega : t.date.month < 100), htwo (by omega : t.date.day < 100), htwo hfields.1,
    htwo hfields.2.1, htwo hfields.2.2, hnanos, hzone, hyear, bind, Option.bind]
  exact ofFields?_fields h

end Instant

end Chargeback
