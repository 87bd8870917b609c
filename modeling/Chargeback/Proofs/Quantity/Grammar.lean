import Chargeback.Proofs.Decimal.Numerals
import Chargeback.Quantity
import Mathlib.Data.List.Nodup
import Mathlib.Data.Nat.BitIndices

/-!
# The grammar of quantities

A quantity is a numeral and a suffix, with blanks around them. No numeral goes on with a
character that a suffix begins with, so a text is split between the two in one way only. What
is read as a quantity are the texts of this grammar whose value is a finite number and not
negative; all others count as nothing.

## Main definitions

* `Quantity.tenPower`: the powers of ten in doubles.
* `Quantity.Suffix`: the suffixes and their multipliers.
* `Quantity.Written`: the texts of the grammar.
* `Quantity.LongestNumeral`: the longest front over the characters of numerals.
-/

namespace Chargeback

namespace Quantity

variable {s front back left right raw : List Char} {number : Decimal} {multiplier : Float}

/-! ## Suffixes -/

/-- The decimal units with their powers of ten. -/
def decimalUnits : List (String × Int) :=
  [("", 0), ("n", -9), ("u", -6), ("m", -3), ("k", 3), ("M", 6), ("G", 9), ("T", 12), ("P", 15),
    ("E", 18)]

/-- The binary units with their powers of 1024. -/
def binaryUnits : List (String × Nat) :=
  [("Ki", 1), ("Mi", 2), ("Gi", 3), ("Ti", 4), ("Pi", 5), ("Ei", 6)]

/-- Ten, squared so many times. Each square is rounded. -/
def tenSquared : Nat → Float
  | 0 => 10.0
  | i + 1 => tenSquared i * tenSquared i

/-- Ten to a power: the product of the squares that the binary digits of the power select, from the
lowest digit on. -/
def tenTo (n : Nat) : Float := (n.bitIndices.map tenSquared).foldl (· * ·) 1.0

/-- Ten to a whole power. A negative one is the reciprocal of the positive one. -/
def tenPower (e : Int) : Float := if e < 0 then 1.0 / tenTo e.natAbs else tenTo e.natAbs

/-- A suffix and its multiplier: a unit, or a power of ten that a word of 32 bits can hold. -/
inductive Suffix : List Char → Float → Prop where
  | decimal {name : String} {power : Int} (h : (name, power) ∈ decimalUnits) :
    Suffix name.toList (Decimal.toFloat { significand := 1, exponent := power })
  | binary {name : String} {power : Nat} (h : (name, power) ∈ binaryUnits) :
    Suffix name.toList (Nat.pow 1024 power).toFloat
  | power {mark : Char} {digits : List Char} {e : Int} (hmark : mark = 'e' ∨ mark = 'E')
    (hdigits : Decimal.Whole digits e) (hlow : -2147483648 ≤ e) (hhigh : e ≤ 2147483647) :
    Suffix (mark :: digits) (tenPower e)

/-! ## Powers of ten -/

theorem bitIndices_eq (n : Nat) :
    n.bitIndices = (if n % 2 = 1 then [0] else []) ++ (n / 2).bitIndices.map (· + 1) := by
  obtain ⟨k, rfl | rfl⟩ : ∃ k, n = 2 * k ∨ n = 2 * k + 1 := ⟨n / 2, by omega⟩
  · simp
  · have hhalf : (2 * k + 1) / 2 = k := by omega
    simp [hhalf]

/-- By induction on the digits that are left: those before them have squared the base. -/
theorem squareUp_eq (acc : Float) (i n : Nat) :
    squareUp acc (tenSquared i) n =
      (n.bitIndices.map fun j => tenSquared (i + j)).foldl (· * ·) acc := by
  induction n using Nat.strongRecOn generalizing acc i with
  | ind n ih =>
    rw [squareUp, bitIndices_eq n]
    split
    next hlast =>
      rw [hlast]
      split <;> simp
    next hmore =>
      have hrest := ih (n / 2) (by omega) (if n % 2 = 1 then acc * tenSquared i else acc) (i + 1)
      rw [tenSquared] at hrest
      rw [hrest]
      split <;> simp [Nat.add_assoc, Nat.add_comm 1, Function.comp_def]

theorem powerOfTen_eq (e : Int) : powerOfTen e = tenPower e := by
  have htenTo : squareUp 1.0 10.0 e.natAbs = tenTo e.natAbs := by
    simpa [tenTo, tenSquared] using squareUp_eq 1.0 0 e.natAbs
  rw [powerOfTen, tenPower, htenTo]

/-- The powers up to this one are doubles, so a power is the double next to it, and so is its
reciprocal. -/
theorem tenPower_eq_toFloat {e : Int} (he : e.natAbs ≤ 22) :
    tenPower e = Decimal.toFloat { significand := 1, exponent := e } := by
  have hall : ∀ n ∈ List.range 23, ∀ e ∈ [(n : Int), -n],
      powerOfTen e = Decimal.toFloat { significand := 1, exponent := e } := by
    decide +kernel
  rw [← powerOfTen_eq]
  refine hall e.natAbs (List.mem_range.mpr (Nat.lt_succ_of_le he)) e ?_
  rw [List.mem_pair]
  omega

/-- The units are the decimal and the binary ones. -/
theorem units_eq :
    units =
      (decimalUnits.map fun u => (u.1, Decimal.toFloat { significand := 1, exponent := u.2 })) ++
        binaryUnits.map fun u => (u.1, (Nat.pow 1024 u.2).toFloat) := by
  decide +kernel

/-- A power of ten behind its mark. -/
theorem exponent?_eq_some_iff {e : Int} :
    exponent? s = some e ↔ ∃ mark digits, s = mark :: digits ∧ (mark = 'e' ∨ mark = 'E') ∧
      Decimal.Whole digits e ∧ -2147483648 ≤ e ∧ e ≤ 2147483647 := by
  cases s with
  | nil => simp [exponent?]
  | cons mark digits =>
    have hrange : inExponentRange e = true ↔ -2147483648 ≤ e ∧ e ≤ 2147483647 := by
      have hmin : Int32.minValue.toInt = -2147483648 := rfl
      have hmax : Int32.maxValue.toInt = 2147483647 := rfl
      rw [inExponentRange, hmin, hmax, Bool.and_eq_true, decide_eq_true_eq, decide_eq_true_eq]
    rw [exponent?]
    by_cases hmark : mark = 'e' ∨ mark = 'E'
    · rw [if_pos (by simpa using hmark), Option.filter_eq_some_iff, Decimal.integer?_eq_some_iff,
        hrange]
      constructor
      · rintro ⟨hdigits, h⟩
        exact ⟨mark, digits, rfl, hmark, hdigits, h⟩
      · rintro ⟨_, _, ⟨⟩, -, hdigits, h⟩
        exact ⟨hdigits, h⟩
    · rw [if_neg (by simpa using hmark)]
      constructor
      · exact fun h => nomatch h
      · rintro ⟨_, _, ⟨⟩, h, -⟩
        exact absurd h hmark

theorem suffix_iff :
    Suffix s multiplier ↔ (∃ u ∈ units, u.1.toList = s ∧ u.2 = multiplier) ∨
      ∃ e, exponent? s = some e ∧ tenPower e = multiplier := by
  constructor
  · intro h
    cases h with
    | @decimal name power h =>
      refine .inl ⟨(name, Decimal.toFloat { significand := 1, exponent := power }), ?_, rfl, rfl⟩
      rw [units_eq]
      exact List.mem_append_left _ (List.mem_map.mpr ⟨(name, power), h, rfl⟩)
    | @binary name power h =>
      refine .inl ⟨(name, (Nat.pow 1024 power).toFloat), ?_, rfl, rfl⟩
      rw [units_eq]
      exact List.mem_append_right _ (List.mem_map.mpr ⟨(name, power), h, rfl⟩)
    | power hmark hdigits hlow hhigh =>
      exact .inr ⟨_, exponent?_eq_some_iff.mpr ⟨_, _, rfl, hmark, hdigits, hlow, hhigh⟩, rfl⟩
  · rintro (⟨u, hu, rfl, rfl⟩ | ⟨e, he, rfl⟩)
    · rw [units_eq, List.mem_append, List.mem_map, List.mem_map] at hu
      rcases hu with ⟨unit, hunit, rfl⟩ | ⟨unit, hunit, rfl⟩
      · exact .decimal hunit
      · exact .binary hunit
    · obtain ⟨mark, digits, rfl, hmark, hdigits, hlow, hhigh⟩ := exponent?_eq_some_iff.mp he
      exact .power hmark hdigits hlow hhigh

/-- A unit is found under its name. -/
theorem find?_units_eq_some_iff {u : String × Float} :
    units.find? (fun u => u.1.toList == s) = some u ↔ u ∈ units ∧ u.1.toList = s := by
  constructor
  · intro h
    exact ⟨List.mem_of_find?_eq_some h, by simpa using List.find?_some h⟩
  · rintro ⟨hu, hs⟩
    have hsome : (units.find? fun u => u.1.toList == s).isSome :=
      List.find?_isSome.mpr ⟨u, hu, by simpa using hs⟩
    obtain ⟨v, hv⟩ := Option.isSome_iff_exists.mp hsome
    have hlist : v.1.toList = s := by simpa using List.find?_some hv
    have hname : v.1 = u.1 := String.toList_injective (hlist.trans hs.symm)
    have hnames : (units.map Prod.fst).Nodup := by decide
    rw [hv, List.inj_on_of_nodup_map hnames (List.mem_of_find?_eq_some hv) hu hname]

/-- The names of the units have no blanks and no digits, and do not begin like a numeral. -/
theorem unit_chars {u : String × Float} (hu : u ∈ units) :
    (∀ c ∈ u.1.toList, c.isDigit = false ∧ Text.isBlank c = false) ∧
      ∀ c ∈ u.1.toList.head?, isNumeral c = false := by
  have hnames : units.all fun u =>
      u.1.toList.all (fun c => !c.isDigit && !Text.isBlank c) &&
        u.1.toList.head?.all fun c => !isNumeral c := by decide
  have h := List.all_eq_true.mp hnames u hu
  simp only [Bool.and_eq_true, List.all_eq_true, Option.all_eq_true, Bool.not_eq_true'] at h
  exact h

/-- No unit has digits in its name, and so none is a power of ten. -/
theorem not_unit_of_exponent? {e : Int} (h : exponent? s = some e) :
    units.find? (fun u => u.1.toList == s) = none := by
  obtain ⟨mark, digits, rfl, -, hdigits, -⟩ := exponent?_eq_some_iff.mp h
  obtain ⟨c, hc, hdigit⟩ := hdigits.exists_isDigit
  refine List.find?_eq_none.mpr fun u hu heq => ?_
  have hname : u.1.toList = mark :: digits := by simpa using heq
  have hfalse := ((unit_chars hu).1 c (hname ▸ List.mem_cons_of_mem mark hc)).1
  rw [hdigit] at hfalse
  cases hfalse

theorem multiplier?_eq_some_iff : multiplier? s = some multiplier ↔ Suffix s multiplier := by
  rw [suffix_iff, multiplier?, funext powerOfTen_eq]
  cases hfind : units.find? fun u => u.1.toList == s with
  | some u =>
    obtain ⟨hu, hs⟩ := find?_units_eq_some_iff.mp hfind
    constructor
    · intro h
      exact .inl ⟨u, hu, hs, Option.some_inj.mp h⟩
    · rintro (⟨v, hv, hvs, rfl⟩ | ⟨e, he, -⟩)
      · rw [find?_units_eq_some_iff.mpr ⟨hv, hvs⟩] at hfind
        exact congrArg _ (congrArg Prod.snd (Option.some_inj.mp hfind).symm)
      · cases (not_unit_of_exponent? he).symm.trans hfind
  | none =>
    rw [Option.map_eq_some_iff]
    constructor
    · exact .inr
    · rintro (⟨v, hv, hvs, -⟩ | h)
      · cases (find?_units_eq_some_iff.mpr ⟨hv, hvs⟩).symm.trans hfind
      · exact h

/-! ## Characters -/

theorem isNumeral_iff {c : Char} :
    isNumeral c = true ↔ c.isDigit = true ∨ c = '.' ∨ c = '+' ∨ c = '-' := by
  simp [isNumeral, or_assoc]

theorem isBlank_of_isDigit {c : Char} (h : c.isDigit = true) : Text.isBlank c = false := by
  have hrange : 48 ≤ c.toNat ∧ c.toNat ≤ 57 := by
    simpa [Char.isDigit, UInt32.le_iff_toNat_le] using h
  simp only [Text.isBlank, Text.blankRanges, List.any_cons, List.any_nil, Bool.or_false,
    Bool.or_eq_false_iff, Bool.and_eq_false_iff, decide_eq_false_iff_not]
  omega

theorem isBlank_of_isNumeral {c : Char} (h : isNumeral c = true) : Text.isBlank c = false := by
  rcases isNumeral_iff.mp h with h | rfl | rfl | rfl
  · exact isBlank_of_isDigit h
  · decide
  · decide
  · decide

theorem isNumeral_of_sign {sign : List Char} {negative : Bool} (h : Decimal.Sign sign negative) :
    ∀ c ∈ sign, isNumeral c = true := by
  cases h with
  | absent => exact fun c hc => nomatch hc
  | plus => simp [isNumeral]
  | minus => simp [isNumeral]

theorem isNumeral_of_allDigits (h : Decimal.AllDigits s) : ∀ c ∈ s, isNumeral c = true :=
  fun c hc => isNumeral_iff.mpr (.inl (h c hc))

theorem isNumeral_of_plain (h : Decimal.Plain s number) : ∀ c ∈ s, isNumeral c = true := by
  obtain ⟨hsign, hs⟩ := h
  rw [List.forall_mem_append]
  refine ⟨isNumeral_of_sign hsign, ?_⟩
  cases hs with
  | whole hdigits hne => exact isNumeral_of_allDigits hdigits
  | pointed hwhole hfraction hne =>
    rw [List.forall_mem_append, List.forall_mem_cons]
    exact ⟨isNumeral_of_allDigits hwhole, rfl, isNumeral_of_allDigits hfraction⟩

theorem ne_nil_of_plain (h : Decimal.Plain s number) : s ≠ [] := by
  obtain ⟨hsign, hs⟩ := h
  cases hs with
  | whole hdigits hne => exact List.append_ne_nil_of_right_ne_nil _ hne
  | pointed hwhole hfraction hne => simp

/-- A suffix has no blanks, and does not begin like a numeral. -/
theorem Suffix.chars (h : Suffix s multiplier) :
    (∀ c ∈ s, Text.isBlank c = false) ∧ ∀ c ∈ s.head?, isNumeral c = false := by
  rcases suffix_iff.mp h with ⟨u, hu, rfl, -⟩ | ⟨e, he, -⟩
  · exact ⟨fun c hc => ((unit_chars hu).1 c hc).2, (unit_chars hu).2⟩
  · obtain ⟨mark, digits, rfl, hmark, ⟨hsign, hdigits, -⟩, -⟩ := exponent?_eq_some_iff.mp he
    have hmarks : Text.isBlank mark = false ∧ isNumeral mark = false := by
      rcases hmark with rfl | rfl
      · decide
      · decide
    rw [List.forall_mem_cons, List.forall_mem_append]
    refine ⟨⟨hmarks.1, fun c hc => isBlank_of_isNumeral (isNumeral_of_sign hsign c hc),
      fun c hc => isBlank_of_isDigit (hdigits c hc)⟩, fun c hc => ?_⟩
    obtain rfl : mark = c := Option.some_inj.mp hc
    exact hmarks.2

/-! ## Quantities -/

/-- The texts of the grammar: a numeral and a suffix, with blanks around them. -/
structure Written (raw left front back right : List Char) (number : Decimal)
    (multiplier : Float) : Prop where
  raw_eq : raw = left ++ (front ++ back) ++ right
  left_blanks : Text.Blanks left
  right_blanks : Text.Blanks right
  numeral : Decimal.Plain front number
  suffix : Suffix back multiplier

/-- The longest front of a text that is made of digits, points and signs. -/
structure LongestNumeral (front s : List Char) : Prop where
  front_prefix : front <+: s
  front_mem : ∀ c ∈ front, c.isDigit = true ∨ c = '.' ∨ c = '+' ∨ c = '-'
  longest : ∀ longer, longer <+: s →
    (∀ c ∈ longer, c.isDigit = true ∨ c = '.' ∨ c = '+' ∨ c = '-') → longer <+: front

theorem longestNumeral_of_splits (h : Text.Splits isNumeral s front back) :
    LongestNumeral front s where
  front_prefix := h.eq_append ▸ List.prefix_append front back
  front_mem c hc := isNumeral_iff.mp (h.front_mem c hc)
  longest _ hlonger hmem := h.longest hlonger fun c hc => isNumeral_iff.mpr (hmem c hc)

theorem Written.splits (h : Written raw left front back right number multiplier) :
    Text.Splits isNumeral (front ++ back) front back :=
  ⟨rfl, isNumeral_of_plain h.numeral, h.suffix.chars.2⟩

theorem Written.trim_eq (h : Written raw left front back right number multiplier) :
    Text.trim raw = front ++ back := by
  rw [h.raw_eq]
  refine Text.trim_append h.left_blanks h.right_blanks ?_ ?_
  · rw [List.forall_mem_append]
    exact ⟨fun c hc => isBlank_of_isNumeral (isNumeral_of_plain h.numeral c hc),
      h.suffix.chars.1⟩
  · exact List.append_ne_nil_of_left_ne_nil (ne_nil_of_plain h.numeral) back

/-- A text of the grammar stands for the product of the two doubles, if this is a finite number
and not negative. -/
theorem parse?_of_written {raw : String}
    (h : Written raw.toList left front back right number multiplier) :
    parse? raw =
      if (number.toFloat * multiplier).isFinite = true ∧ number.toFloat * multiplier ≥ 0.0 then
        some (number.toFloat * multiplier)
      else none := by
  obtain ⟨htake, hdrop⟩ := h.splits.eq_takeWhile
  rw [parse?, h.trim_eq, htake, hdrop, Decimal.plain?_eq_some_iff.mpr h.numeral,
    multiplier?_eq_some_iff.mpr h.suffix]
  simp

/-- What is read as a quantity is a text of the grammar. -/
theorem exists_written_of_parse? {raw : String} {x : Float} (h : parse? raw = some x) :
    ∃ left front back right number multiplier,
      Written raw.toList left front back right number multiplier := by
  obtain ⟨left, right, hleft, hright, hraw⟩ := Text.exists_blanks_trim raw.toList
  have hsplits := Text.splits_takeWhile isNumeral (Text.trim raw.toList)
  simp only [parse?, Option.bind_eq_bind, Option.bind_eq_some_iff] at h
  obtain ⟨number, hnumber, multiplier, hmultiplier, -⟩ := h
  exact ⟨left, _, _, right, number, multiplier, hsplits.eq_append ▸ hraw, hleft, hright,
    Decimal.plain?_eq_some_iff.mp hnumber, multiplier?_eq_some_iff.mp hmultiplier⟩

/-- The texts that are read as quantities are exactly those of the grammar with a finite value
that is not negative, and the value is what is read; all others count as nothing. The powers of ten
that are doubles, and their reciprocals, are read as exactly as the units are. -/
theorem reads_grammar (raw : String) :
    (∀ x, parse? raw = some x → ∃ left front back right number multiplier,
      Written raw.toList left front back right number multiplier) ∧
    (∀ left front back right number multiplier,
      Written raw.toList left front back right number multiplier →
        Text.trim raw.toList = front ++ back ∧ LongestNumeral front (front ++ back) ∧
        parse? raw =
          if (number.toFloat * multiplier).isFinite = true ∧
              number.toFloat * multiplier ≥ 0.0 then
            some (number.toFloat * multiplier)
          else none) ∧
    (parse? raw = none → millicores raw = 0 ∧ bytes raw = 0) ∧
    (∀ e : Int, e.natAbs ≤ 22 →
      tenPower e = Decimal.toFloat { significand := 1, exponent := e }) := by
  refine ⟨fun _ h => exists_written_of_parse? h, fun _ _ _ _ _ _ h => ?_, fun h => ?_,
    fun _ => tenPower_eq_toFloat⟩
  · exact ⟨h.trim_eq, longestNumeral_of_splits h.splits, parse?_of_written h⟩
  · rw [millicores, bytes, h]
    exact ⟨rfl, rfl⟩

example : parse? " 1.5Gi\n" = some 1610612736.0 := by decide +kernel

-- Without digits behind it the mark of a power is a unit, or nothing.
example : parse? "2E" = some 2e18 ∧ parse? "2E3" = some 2000.0 ∧ parse? "2e" = none := by
  decide +kernel

end Quantity

end Chargeback
