/-!
# Amounts that stop at the top

Millicores and bytes are counted in 64-bit words. A total that no word can hold
is given as the largest word: it is never smaller than any of its parts, and the
order in which the parts were added does not show.

## Main definitions

* `Amount.max`: the largest amount.
* `Amount.add`: addition that stops at `Amount.max`.
* `Amount.total`: the exact total of a list.
* `Amount.sum?`: the sum of a list, or nothing when no word holds it.
-/

namespace Chargeback

namespace Amount

/-- The largest amount, `2 ^ 64 - 1`. -/
def max : UInt64 := 18446744073709551615

/-- Addition that stops at the largest amount. -/
def add (a b : UInt64) : UInt64 :=
  if a.toNat + b.toNat < UInt64.size then a + b else max

@[simp] theorem toNat_max : max.toNat = UInt64.size - 1 := rfl

/-- Read as a number, the sum is the exact one clamped to the largest word. -/
theorem toNat_add (a b : UInt64) :
    (add a b).toNat = min (a.toNat + b.toNat) (UInt64.size - 1) := by
  unfold add
  split
  next h => rw [UInt64.toNat_add, Nat.mod_eq_of_lt h]; simp only [UInt64.size] at h ⊢; omega
  next h => rw [toNat_max]; simp only [UInt64.size] at h ⊢; omega

/-- The exact total of a list of amounts. -/
def total : List UInt64 → Nat
  | [] => 0
  | a :: l => a.toNat + total l

/-- The exact sum of a list of amounts, when a word can hold it. -/
def sum? (l : List UInt64) : Option UInt64 :=
  if total l < UInt64.size then some (UInt64.ofNat (total l)) else none

/-- `sum?` answers exactly the sums that fit, and answers them exactly. -/
theorem sum?_eq_some_iff (l : List UInt64) (a : UInt64) :
    sum? l = some a ↔ total l = a.toNat := by
  unfold sum?
  split
  next h =>
    rw [Option.some_inj, ← UInt64.toNat_inj, UInt64.toNat_ofNat', Nat.mod_eq_of_lt h]
  next h =>
    have := a.toNat_lt
    simp only [UInt64.size, reduceCtorEq, false_iff] at h ⊢; omega

/-- The whole number nearest to `x`, a half going away from zero; below zero and
for a NaN it is zero, and beyond the words it is the largest one. The difference is
exact: a double with a fraction has a whole part that is a double too. -/
def ofFloat (x : Float) : UInt64 :=
  let whole := x.toUInt64
  if x - whole.toFloat ≥ 0.5 then add whole 1 else whole

example : ofFloat 2.5 = 3 ∧ ofFloat 2.25 = 2 ∧ ofFloat (-2.5) = 0 := by decide +kernel

end Amount

end Chargeback
