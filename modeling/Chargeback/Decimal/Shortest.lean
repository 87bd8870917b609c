import Chargeback.Decimal.Basic

/-!
# Shortest decimals

The text of a double: the fewest digits that read back as the same double, and
of those the nearest, written positionally however large or small the number is.

A finite double is `m * 2 ^ q` with natural `m`. The reals that round to it form
an interval around it whose ends belong to it exactly when `m` is even. Among
the grids of numbers with one, two, three significant digits the first that
meets the interval gives the digits; the value's two neighbours on a grid decide
whether it does.

## Main definitions

* `Binary`: the significand and the binary exponent of a finite double.
* `Decimal.shortest`: the digits, and the power of ten of the last one.
* `Decimal.text`: the positional text of a double.
-/

namespace Chargeback

/-- The number `significand * 2 ^ exponent`, with the width of the gap below it. -/
structure Binary where
  significand : Nat
  exponent : Int
  /-- The next smaller double is only half as far away as the next larger one. -/
  narrowBelow : Bool
deriving DecidableEq, Repr

/-- The leading bit of a significand, `2 ^ 52`, which is not written out among the
bits of a double. -/
def Binary.hiddenBit : Nat := 4503599627370496

/-- The absolute value of a finite double. -/
def Binary.ofBits (bits : UInt64) : Binary :=
  let fraction : Nat := bits.toNat % hiddenBit
  let biased : Nat := bits.toNat / hiddenBit % 2048
  if biased = 0 then ⟨fraction, -1074, false⟩
  else ⟨hiddenBit + fraction, (biased : Int) - 1075, fraction = 0 && biased > 1⟩

namespace Decimal

/-- Compare `a * 2 ^ p` with `b * 10 ^ q` in whole numbers. -/
def compareScaled (a : Nat) (p : Int) (b : Nat) (q : Int) : Ordering :=
  compare (a * Nat.pow 2 p.toNat * Nat.pow 10 (-q).toNat)
    (b * Nat.pow 10 q.toNat * Nat.pow 2 (-p).toNat)

/-- A number on the grid `10 ^ p` lies in the interval of reals that round to
`x`. -/
def roundsTo (x : Binary) (candidate : Nat) (p : Int) : Bool :=
  let closed : Bool := x.significand % 2 == 0
  let low := if x.narrowBelow then 4 * x.significand - 1 else 4 * x.significand - 2
  let high := 4 * x.significand + 2
  let q := x.exponent - 2
  match compareScaled low q candidate p, compareScaled high q candidate p with
  | .lt, .gt => true
  | .eq, .gt | .lt, .eq => closed
  | _, _ => false

/-- The greatest number on the grid `10 ^ p` that is at most `x`. -/
def floorOn (x : Binary) (p : Int) : Nat :=
  (x.significand * Nat.pow 2 x.exponent.toNat * Nat.pow 10 (-p).toNat) /
    (Nat.pow 10 p.toNat * Nat.pow 2 (-x.exponent).toNat)

/-- The neighbour of `x` on the grid `10 ^ p` that rounds to `x`, the nearer one
where both do and the even one where both are equally near. -/
def onGrid? (x : Binary) (p : Int) : Option Nat :=
  let below := floorOn x p
  let above := below + 1
  match roundsTo x below p, roundsTo x above p with
  | false, false => none
  | true, false => some below
  | false, true => some above
  | true, true =>
    match compareScaled (2 * x.significand) x.exponent (below + above) p with
    | .lt => some below
    | .gt => some above
    | .eq => some (if below % 2 = 0 then below else above)

/-- Walk from a coarse grid to finer ones until one of them meets the interval
of `x`. -/
def refine (x : Binary) (p : Int) : Nat → Nat × Int
  | 0 => (floorOn x p, p)
  | steps + 1 =>
    match onGrid? x p with
    | some n => (n, p)
    | none => refine x (p - 1) steps

/-- The power of ten of the first digit of `x`. -/
def leadingPower (x : Binary) : Int :=
  let whole := floorOn x 0
  if whole ≠ 0 then ((digits whole).length : Int) - 1
  else ((digits (floorOn x (-400))).length : Int) - 401

/-- The digits of a positive double as a whole number, with the power of ten of
the last digit. The search starts one grid above the first digit, since a number
just below a power of ten may round up to it, and 18 steps reach the 17 digits
that always suffice. -/
def shortest (x : Binary) : Nat × Int := refine x (leadingPower x + 1) 18

/-- The positional text of `n * 10 ^ p`. -/
def positional (n : Nat) (p : Int) : List Char :=
  if 0 ≤ p then digits n ++ List.replicate p.toNat '0'
  else
    let places := (-p).toNat
    let ds := digits n
    let ds := List.replicate (places + 1 - ds.length) '0' ++ ds
    ds.take (ds.length - places) ++ '.' :: ds.drop (ds.length - places)

/-- The text of a double: positional with the fewest digits that read back. -/
def text (x : Float) : String :=
  if x.isNaN then "NaN"
  else
    let sign := if x.toBits >>> 63 = 1 then ['-'] else []
    let body :=
      if x.isInf then "inf".toList
      else
        let b := Binary.ofBits x.toBits
        if b.significand = 0 then ['0'] else let (n, p) := shortest b; positional n p
    String.ofList (sign ++ body)

end Decimal

end Chargeback
