/-!
# Decimal numerals

Numerals as they are written: digits of a whole number, an optional sign, an
optional point, an optional power of ten. A numeral denotes the exact number
`± significand * 10 ^ exponent`; as a machine number it is the nearest double.

## Main definitions

* `Decimal.digits`, `Decimal.value`: a natural number as digits and back.
* `Decimal`: sign, significand and power of ten of a numeral.
* `Decimal.plain?`: a numeral with an optional sign and an optional point.
* `Decimal.toFloat`: the nearest double.
-/

namespace Chargeback

/-- The number `± significand * 10 ^ exponent`. -/
structure Decimal where
  negative : Bool := false
  significand : Nat
  exponent : Int := 0
deriving DecidableEq, Repr, Inhabited

namespace Decimal

/-! ## Digits -/

/-- The digit that stands for `d`, for `d < 10`. -/
def digitChar (d : Nat) : Char := Char.ofNat (48 + d)

/-- What a digit stands for. -/
def digitValue (c : Char) : Nat := c.toNat - 48

/-- The digits of a natural number, the first one nonzero unless the number is
zero. -/
def digits (n : Nat) : List Char :=
  if n < 10 then [digitChar n] else digits (n / 10) ++ [digitChar (n % 10)]
termination_by n

/-- The number that a row of digits continues, once it stands for `start`. -/
def valueFrom (start : Nat) (s : List Char) : Nat :=
  s.foldl (fun n c => 10 * n + digitValue c) start

/-- The number that a row of digits stands for. -/
def value (s : List Char) : Nat := valueFrom 0 s

/-- Split a text behind its leading digits. -/
def spanDigits (s : List Char) : List Char × List Char :=
  (s.takeWhile Char.isDigit, s.dropWhile Char.isDigit)

theorem digitValue_digitChar {d : Nat} (h : d < 10) : digitValue (digitChar d) = d := by
  have : ∀ d < 10, digitValue (digitChar d) = d := by decide
  exact this d h

theorem isDigit_digitChar {d : Nat} (h : d < 10) : (digitChar d).isDigit = true := by
  have : ∀ d < 10, (digitChar d).isDigit = true := by decide
  exact this d h

theorem valueFrom_append (n : Nat) (s t : List Char) :
    valueFrom n (s ++ t) = valueFrom (valueFrom n s) t := by
  simp [valueFrom, List.foldl_append]

/-- The digits of a number stand for it. -/
theorem value_digits (n : Nat) : value (digits n) = n := by
  induction n using Nat.strongRecOn with
  | ind n ih =>
    rw [digits]
    split
    next h => simp [value, valueFrom, digitValue_digitChar h]
    next h =>
      have hlt : n / 10 < n := by omega
      rw [value, valueFrom_append, ← value, ih _ hlt]
      simp only [valueFrom, List.foldl_cons, List.foldl_nil,
        digitValue_digitChar (Nat.mod_lt n (by omega : 10 > 0))]
      omega

theorem all_isDigit_digits (n : Nat) : ∀ c ∈ digits n, c.isDigit = true := by
  induction n using Nat.strongRecOn with
  | ind n ih =>
    rw [digits]
    split
    next h => simp [isDigit_digitChar h]
    next h =>
      intro c hc
      rcases List.mem_append.1 hc with hc | hc
      · exact ih _ (by omega) c hc
      · rw [List.mem_singleton.1 hc]; exact isDigit_digitChar (Nat.mod_lt _ (by omega))

theorem digits_ne_nil (n : Nat) : digits n ≠ [] := by
  rw [digits]; split <;> simp

/-! ## Numerals -/

/-- Take an optional sign off the front; the flag tells whether it is a minus. -/
def takeSign : List Char → Bool × List Char
  | '-' :: rest => (true, rest)
  | '+' :: rest => (false, rest)
  | s => (false, s)

/-- Read digits with an optional point among them, at least one digit in all,
and give what follows. -/
def unsigned? (s : List Char) : Option ((Nat × Int) × List Char) :=
  let (whole, rest) := spanDigits s
  match rest with
  | '.' :: rest =>
    let (fraction, rest) := spanDigits rest
    if whole.isEmpty && fraction.isEmpty then none
    else some ((value (whole ++ fraction), -(fraction.length : Int)), rest)
  | rest => if whole.isEmpty then none else some ((value whole, 0), rest)

/-- A numeral without a power of ten: an optional sign, then digits with an
optional point, and nothing else. -/
def plain? (s : List Char) : Option Decimal :=
  let (negative, s) := takeSign s
  match unsigned? s with
  | some ((significand, exponent), []) => some { negative, significand, exponent }
  | _ => none

/-- A whole number with an optional sign, and nothing else. -/
def integer? (s : List Char) : Option Int :=
  let (negative, s) := takeSign s
  if s.isEmpty || !s.all Char.isDigit then none
  else some (if negative then -(value s : Int) else value s)

/-- A numeral that may end in a power of ten, marked by `e` or `E`. -/
def scientific? (s : List Char) : Option Decimal :=
  let (negative, s) := takeSign s
  match unsigned? s with
  | none => none
  | some ((significand, exponent), []) => some { negative, significand, exponent }
  | some ((significand, exponent), mark :: rest) =>
    if mark = 'e' || mark = 'E' then
      (integer? rest).map fun power => { negative, significand, exponent := exponent + power }
    else none

/-! ## Machine numbers -/

/-- The double nearest to `significand * 10 ^ exponent`. Numbers that lie beyond
all finite doubles, or too close to zero for the least one, are recognised by
the count of their digits, so that no large power is ever formed. -/
def magnitude (significand : Nat) (exponent : Int) : Float :=
  let order := (digits significand).length + exponent
  if significand = 0 then 0.0
  else if order > 310 then 1.0 / 0.0
  else if order < -330 then 0.0
  else Float.ofScientific significand (exponent < 0) exponent.natAbs

/-- The double nearest to a numeral. -/
def toFloat (d : Decimal) : Float :=
  let m := magnitude d.significand d.exponent
  if d.negative then -m else m

/-- A text spells a word when case is left aside. -/
def spells (word : String) (s : List Char) : Bool :=
  s.map Char.toLower == word.toList

/-- The double that a text stands for: a numeral, or one of the words `inf`,
`infinity` and `nan` in any case behind an optional sign. -/
def readFloat? (s : List Char) : Option Float :=
  match scientific? s with
  | some d => some d.toFloat
  | none =>
    let (negative, s) := takeSign s
    if spells "inf" s || spells "infinity" s then
      some (if negative then -1.0 / 0.0 else 1.0 / 0.0)
    else if spells "nan" s then some (0.0 / 0.0)
    else none

end Decimal

end Chargeback
