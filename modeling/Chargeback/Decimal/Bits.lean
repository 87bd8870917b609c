import Chargeback.Json.Writing

/-!
# The bits of doubles

A double can be passed on exactly by its bits. They are written with sixteen
hexadecimal digits; both zeros are written alike, and so are all values that are
no numbers.

## Main definitions

* `Decimal.bitsText`: the bits of a double.
-/

namespace Chargeback

namespace Decimal

/-- The `count` lowest hexadecimal digits of a number. -/
def hexDigits (count n : Nat) : List Char :=
  (List.range count).reverse.map fun i => Json.hexDigit (n >>> (4 * i) % 16)

/-- The bits of a double in hexadecimal. -/
def bitsText (x : Float) : String :=
  if x.isNaN then "nan"
  else "0x" ++ String.ofList (hexDigits 16 (if x == 0.0 then 0 else x.toBits.toNat))

end Decimal

end Chargeback
