import Chargeback.Decimal.Basic

/-!
# JSON values

A JSON text as a value. Objects keep their fields in the order and the number in
which they were written, and numbers keep the parts of their text, so that each
reader can decide for itself what a repeated field or a fraction means.

## Main definitions

* `Json.Numeral`: the text of a number, taken apart.
* `Json`: the values.
* `Json.Numeral.natural?`, `Json.Numeral.integer?`, `Json.Numeral.toFloat`: the
  numbers that a numeral can be read as.
-/

namespace Chargeback

/-- The text of a JSON number, taken apart: sign, whole part, the digits behind
the point and the power of ten. -/
structure Json.Numeral where
  negative : Bool := false
  whole : Nat
  fraction : Option (List Char) := none
  exponent : Option Int := none
deriving DecidableEq, Repr, Inhabited

/-- A JSON value. -/
inductive Json where
  | null
  | bool (b : Bool)
  | number (n : Json.Numeral)
  | string (s : String)
  /-- A string that names no text, since it escapes only half of a character. -/
  | halfCharacter
  | array (items : List Json)
  | object (fields : List (String × Json))
deriving Repr, Inhabited

namespace Json

namespace Numeral

/-- The natural number that is written without sign, point and power. -/
def natural? (n : Numeral) : Option Nat :=
  if n.negative || n.fraction.isSome || n.exponent.isSome then none else some n.whole

/-- The integer that is written without point and power; a zero with a minus is
none, since it stands for the negative zero of the doubles. -/
def integer? (n : Numeral) : Option Int :=
  if n.fraction.isSome || n.exponent.isSome then none
  else if n.negative then (if n.whole = 0 then none else some (-(n.whole : Int)))
  else some n.whole

/-- The exact number. -/
def toDecimal (n : Numeral) : Decimal :=
  let fraction := n.fraction.getD []
  { negative := n.negative
    significand := Decimal.valueFrom n.whole fraction
    exponent := n.exponent.getD 0 - (fraction.length : Int) }

/-- The nearest double. -/
def toFloat (n : Numeral) : Float := n.toDecimal.toFloat

end Numeral

/-- The number `n`. -/
def natural (n : Nat) : Json := .number { whole := n }

/-- The number `n`. -/
def integer (n : Int) : Json := .number { negative := n < 0, whole := n.natAbs }

/-- An amount as a number. -/
def amount (n : UInt64) : Json := natural n.toNat

/-- An object without the fields that are absent. -/
def record (fields : List (String × Option Json)) : Json :=
  .object (fields.filterMap fun f => f.2.map (f.1, ·))

end Json

end Chargeback
