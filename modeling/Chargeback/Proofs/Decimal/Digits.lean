import Chargeback.Decimal.Basic
import Chargeback.Proofs.Text.Fronts

/-!
# Rows of digits

What a reader of numbers relies on: a row of digits ends where no digit follows, a number has
no zeros in front, and it has no more digits than the width that is kept for it.

## Main definitions

* `Decimal.NoDigit`: the texts that do not go on with a digit.
-/

namespace Chargeback

namespace Decimal

/-- The text does not go on with a digit. -/
def NoDigit (rest : List Char) : Prop := ∀ c ∈ rest.head?, c.isDigit = false

theorem noDigit_cons {c : Char} {rest : List Char} (h : c.isDigit = false) :
    NoDigit (c :: rest) := by
  simpa [NoDigit] using h

/-- A row of digits ends where something else begins. -/
theorem spanDigits_append {ds rest : List Char} (hds : ∀ c ∈ ds, c.isDigit = true)
    (hrest : NoDigit rest) : spanDigits (ds ++ rest) = (ds, rest) := by
  obtain ⟨htake, hdrop⟩ := Text.Splits.eq_takeWhile ⟨rfl, hds, hrest⟩
  rw [spanDigits, htake, hdrop]

theorem digits_eq_cons (n : Nat) : ∃ c ds, digits n = c :: ds ∧ c.isDigit = true := by
  obtain ⟨c, ds, hds⟩ := List.exists_cons_of_ne_nil (digits_ne_nil n)
  exact ⟨c, ds, hds, all_isDigit_digits n c (by rw [hds]; exact List.mem_cons_self)⟩

/-- A positive number is written without a zero in front. -/
theorem digits_of_pos {n : Nat} (h : 0 < n) : ∃ c ds, digits n = c :: ds ∧ c ≠ '0' := by
  induction n using Nat.strongRecOn with
  | ind n ih =>
    rw [digits]
    split
    next hlt =>
      have hne : ∀ d < 10, 0 < d → digitChar d ≠ '0' := by decide
      exact ⟨_, _, rfl, hne n hlt h⟩
    next hge =>
      obtain ⟨c, ds, hds, hc⟩ := ih (n / 10) (by omega) (by omega)
      exact ⟨c, ds ++ [digitChar (n % 10)], by rw [hds]; rfl, hc⟩

/-- What starts with a digit has no sign. -/
theorem takeSign_of_isDigit {c : Char} {rest : List Char} (h : c.isDigit = true) :
    takeSign (c :: rest) = (false, c :: rest) := by
  unfold takeSign
  split
  next heq => cases heq; cases h
  next heq => cases heq; cases h
  next => rfl

theorem length_digits_of_lt {n : Nat} (h : n < 10) : (digits n).length = 1 := by
  rw [digits, if_pos h]
  rfl

/-- A number below a power of ten has at most as many digits as the power says. -/
theorem length_digits_le {width n : Nat} (h : n < Nat.pow 10 (width + 1)) :
    (digits n).length ≤ width + 1 := by
  induction width generalizing n with
  | zero => exact Nat.le_of_eq (length_digits_of_lt h)
  | succ width ih =>
    have hpow : Nat.pow 10 (width + 1 + 1) = Nat.pow 10 (width + 1) * 10 := rfl
    rcases Nat.lt_or_ge n 10 with hlt | hge
    · rw [length_digits_of_lt hlt]
      omega
    · have hfront : (digits (n / 10)).length ≤ width + 1 := ih (by omega)
      rw [digits, if_neg (by omega), List.length_append, List.length_singleton]
      omega

end Decimal

end Chargeback
