import Chargeback.Amount
import Chargeback.Decimal.Basic
import Chargeback.Text.Blank

/-!
# Resource quantities

Quantities are numerals with a unit behind them: `250m`, `1.5`, `512Mi`, `1e9`.
The numeral is the longest prefix over digits, point and signs; what follows it
has to be a known unit or a power of ten. A text that is no quantity counts as
nothing.

## Main definitions

* `Quantity.units`: the units and their multipliers.
* `Quantity.parse?`: the number of base units that a text stands for.
* `Quantity.millicores`, `Quantity.bytes`: whole millicores and bytes.
-/

namespace Chargeback

namespace Quantity

/-- The units: decimal multiples and fractions, and the binary multiples. -/
def units : List (String × Float) :=
  [("", 1.0), ("n", 1e-9), ("u", 1e-6), ("m", 1e-3), ("k", 1e3), ("M", 1e6), ("G", 1e9),
    ("T", 1e12), ("P", 1e15), ("E", 1e18), ("Ki", 1024.0), ("Mi", 1048576.0),
    ("Gi", 1073741824.0), ("Ti", 1099511627776.0), ("Pi", 1125899906842624.0),
    ("Ei", 1152921504606846976.0)]

/-- Multiply `acc` by `base ^ n` as the integer powers of doubles are computed: from the lowest
binary digit of `n` on, the base is multiplied in if the digit is one, and is then squared. Each
product is rounded, so the order of the steps matters. -/
def squareUp (acc base : Float) (n : Nat) : Float :=
  let acc := if n % 2 = 1 then acc * base else acc
  if h : n / 2 = 0 then acc else squareUp acc (base * base) (n / 2)
termination_by n
decreasing_by omega

/-- Ten to a whole power, in doubles: for a negative one, the power is computed first and
then divided by. -/
def powerOfTen (e : Int) : Float :=
  let p := squareUp 1.0 10.0 e.natAbs
  if e < 0 then 1.0 / p else p

/-- A power of ten that a word of 32 bits can hold. -/
def inExponentRange (e : Int) : Bool := Int32.minValue.toInt ≤ e && e ≤ Int32.maxValue.toInt

/-- The power of ten written behind the mark `e` or `E`. -/
def exponent? : List Char → Option Int
  | mark :: rest =>
    if mark = 'e' || mark = 'E' then (Decimal.integer? rest).filter inExponentRange else none
  | [] => none

/-- The multiplier that a suffix stands for. The units come first, so that a
lone `E` is the unit and not the mark of a power. -/
def multiplier? (suffix : List Char) : Option Float :=
  match units.find? fun u => u.1.toList == suffix with
  | some u => some u.2
  | none => (exponent? suffix).map powerOfTen

/-- A character that the numeral of a quantity may be made of. -/
def isNumeral (c : Char) : Bool := c.isDigit || c = '.' || c = '+' || c = '-'

/-- The number of base units that a text stands for. Only finite numbers that
are not negative count; blanks around the text do not matter. -/
def parse? (raw : String) : Option Float := do
  let s := Text.trim raw.toList
  let number ← Decimal.plain? (s.takeWhile isNumeral)
  let multiplier ← multiplier? (s.dropWhile isNumeral)
  let result := number.toFloat * multiplier
  if result.isFinite && result ≥ 0.0 then some result else none

/-- Whole millicores of a CPU quantity, zero for a text that is none. -/
def millicores (raw : String) : UInt64 :=
  match parse? raw with
  | some cores => Amount.ofFloat (cores * 1000.0)
  | none => 0

/-- Whole bytes of a memory or storage quantity, zero for a text that is none. -/
def bytes (raw : String) : UInt64 :=
  match parse? raw with
  | some b => Amount.ofFloat b
  | none => 0

end Quantity

end Chargeback
