import Chargeback.Proofs.Decimal.Digits

/-!
# The grammar of numerals

A numeral is an optional sign, and digits with an optional point among them. These are the texts
that are read as one, each in a single way.

## Main definitions

* `Decimal.Sign`, `Decimal.Unsigned`, `Decimal.Plain`: numerals without a power of ten.
* `Decimal.Whole`: whole numbers.
-/

namespace Chargeback

namespace Decimal

variable {s sign rest digits whole fraction : List Char} {negative : Bool} {significand : Nat}
  {exponent e : Int} {d : Decimal}

/-- A row of digits, which may be empty. -/
def AllDigits (s : List Char) : Prop := ∀ c ∈ s, c.isDigit = true

/-- An optional sign, and whether it is a minus. -/
inductive Sign : List Char → Bool → Prop where
  | absent : Sign [] false
  | plus : Sign ['+'] false
  | minus : Sign ['-'] true

/-- Digits with an optional point, and at least one digit on one side of it: the text stands for
`significand * 10 ^ exponent`. -/
inductive Unsigned : List Char → Nat → Int → Prop where
  | whole {digits : List Char} (hdigits : AllDigits digits) (hne : digits ≠ []) :
    Unsigned digits (value digits) 0
  | pointed {whole fraction : List Char} (hwhole : AllDigits whole) (hfraction : AllDigits fraction)
    (hne : whole ++ fraction ≠ []) :
    Unsigned (whole ++ '.' :: fraction) (value (whole ++ fraction)) (-(fraction.length : Int))

/-- A numeral without a power of ten. -/
inductive Plain : List Char → Decimal → Prop where
  | mk {sign s : List Char} {negative : Bool} {significand : Nat} {exponent : Int}
    (hsign : Sign sign negative) (hs : Unsigned s significand exponent) :
    Plain (sign ++ s) { negative, significand, exponent }

/-- A whole number with an optional sign. -/
inductive Whole : List Char → Int → Prop where
  | mk {sign digits : List Char} {negative : Bool} (hsign : Sign sign negative)
    (hdigits : AllDigits digits) (hne : digits ≠ []) :
    Whole (sign ++ digits) (if negative then -(value digits : Int) else value digits)

/-- A whole number has a digit. -/
theorem Whole.exists_isDigit (h : Whole s e) : ∃ c ∈ s, c.isDigit = true := by
  obtain ⟨-, hdigits, hne⟩ := h
  obtain ⟨c, hc⟩ := List.exists_mem_of_ne_nil _ hne
  exact ⟨c, List.mem_append_right _ hc, hdigits c hc⟩

/-! ## Signs -/

/-- A text with its sign taken off goes on behind a sign. -/
theorem sign_takeSign (s : List Char) :
    ∃ sign, Sign sign (takeSign s).1 ∧ s = sign ++ (takeSign s).2 := by
  unfold takeSign
  split
  · exact ⟨_, .minus, rfl⟩
  · exact ⟨_, .plus, rfl⟩
  · exact ⟨_, .absent, rfl⟩

/-- The text does not go on with a sign. -/
def NoSign (rest : List Char) : Prop := ∀ c ∈ rest.head?, c ≠ '+' ∧ c ≠ '-'

theorem takeSign_append (hsign : Sign sign negative) (hrest : NoSign rest) :
    takeSign (sign ++ rest) = (negative, rest) := by
  cases hsign with
  | plus => rfl
  | minus => rfl
  | absent =>
    unfold takeSign
    split
    next heq => exact absurd rfl (hrest '-' (by rw [← List.nil_append rest, heq]; rfl)).2
    next heq => exact absurd rfl (hrest '+' (by rw [← List.nil_append rest, heq]; rfl)).1
    next => rfl

theorem noSign_of_isDigit {c : Char} (h : c.isDigit = true) : NoSign (c :: rest) := by
  intro c' hc'
  obtain rfl : c = c' := Option.some_inj.mp hc'
  constructor
  · rintro rfl
    cases h
  · rintro rfl
    cases h

theorem AllDigits.noSign (h : AllDigits digits) (hne : digits ≠ []) : NoSign digits := by
  cases digits with
  | nil => exact absurd rfl hne
  | cons c digits => exact noSign_of_isDigit (h c List.mem_cons_self)

theorem Unsigned.noSign (h : Unsigned s significand exponent) : NoSign s := by
  cases h with
  | whole hdigits hne => exact hdigits.noSign hne
  | @pointed whole fraction hwhole hfraction hne =>
    cases whole with
    | nil =>
      intro c hc
      obtain rfl : '.' = c := Option.some_inj.mp hc
      decide
    | cons c whole => exact noSign_of_isDigit (hwhole c List.mem_cons_self)

/-! ## Digits and points -/

/-- What is split off in front are all digits. -/
theorem spanDigits_splits (s : List Char) :
    Text.Splits Char.isDigit s (spanDigits s).1 (spanDigits s).2 :=
  Text.splits_takeWhile Char.isDigit s

theorem spanDigits_of_allDigits (h : AllDigits s) : spanDigits s = (s, []) := by
  have hend : NoDigit [] := fun _ hc => nomatch hc
  simpa using spanDigits_append h hend

theorem unsigned?_eq_some_iff :
    unsigned? s = some ((significand, exponent), []) ↔ Unsigned s significand exponent := by
  constructor
  · intro h
    have hfront := spanDigits_splits s
    unfold unsigned? at h
    generalize spanDigits s = spanned at h hfront
    obtain ⟨whole, rest⟩ := spanned
    dsimp only at h hfront
    split at h
    next behind =>
      have hback := spanDigits_splits behind
      generalize spanDigits behind = spanned at h hback
      obtain ⟨fraction, rest⟩ := spanned
      dsimp only at h hback
      split at h
      next => cases h
      next hne =>
        cases h
        rw [hfront.eq_append, hback.eq_append, List.append_nil]
        exact .pointed hfront.front_mem hback.front_mem (by simpa using hne)
    next =>
      split at h
      next => cases h
      next hne =>
        cases h
        rw [hfront.eq_append, List.append_nil]
        exact .whole hfront.front_mem (by simpa using hne)
  · intro h
    cases h with
    | whole hdigits hne =>
      rw [unsigned?, spanDigits_of_allDigits hdigits]
      simp [hne]
    | pointed hwhole hfraction hne =>
      rw [unsigned?, spanDigits_append hwhole (noDigit_cons (by decide))]
      simp only [spanDigits_of_allDigits hfraction]
      exact if_neg (by simpa using hne)

/-! ## Numerals -/

/-- What is read as a numeral are the texts of the grammar, each as the number it stands for. -/
theorem plain?_eq_some_iff : plain? s = some d ↔ Plain s d := by
  constructor
  · intro h
    obtain ⟨sign, hsign, hs⟩ := sign_takeSign s
    unfold plain? at h
    generalize takeSign s = taken at h hsign hs
    obtain ⟨negative, rest⟩ := taken
    dsimp only at h hsign hs
    split at h
    next significand exponent hunsigned =>
      cases h
      rw [hs]
      exact .mk hsign (unsigned?_eq_some_iff.mp hunsigned)
    next => cases h
  · rintro ⟨hsign, hs⟩
    rw [plain?, takeSign_append hsign hs.noSign]
    dsimp only
    rw [unsigned?_eq_some_iff.mpr hs]

theorem allDigits_and_ne_nil_iff :
    ¬(s.isEmpty || !s.all Char.isDigit) = true ↔ AllDigits s ∧ s ≠ [] := by
  rw [Bool.or_eq_true, not_or, Bool.not_eq_true', Bool.not_eq_false, List.all_eq_true,
    List.isEmpty_iff, and_comm]
  rfl

/-- The same for whole numbers. -/
theorem integer?_eq_some_iff : integer? s = some e ↔ Whole s e := by
  constructor
  · intro h
    obtain ⟨sign, hsign, hs⟩ := sign_takeSign s
    unfold integer? at h
    generalize takeSign s = taken at h hsign hs
    obtain ⟨negative, rest⟩ := taken
    dsimp only at h hsign hs
    split at h
    next => cases h
    next hread =>
      cases h
      obtain ⟨hdigits, hne⟩ := allDigits_and_ne_nil_iff.mp hread
      rw [hs]
      exact .mk hsign hdigits hne
  · rintro ⟨hsign, hdigits, hne⟩
    rw [integer?, takeSign_append hsign (hdigits.noSign hne)]
    exact if_neg (allDigits_and_ne_nil_iff.mpr ⟨hdigits, hne⟩)

end Decimal

end Chargeback
