import Chargeback.Proofs.Double.Normal

/-!
# Shares in doubles

A count of up to 64 bits is rounded when it becomes a double, and so is the quotient of two
counts. Rounding respects the order at both places, and one is a double: so the quotient of a
count by one that is not smaller is at most one, also in doubles.

## Main definitions

* `Normal.ofNat`: the normal double that a positive number is rounded to.
* `Normal.div_le_one`: the quotient of normal doubles in their order is at most one.
* `toFloat_div_le_one`: a count divided by one that is not smaller.
-/

namespace Chargeback

open Float.Model Float.Model.UnpackedFloat

variable {m n k : Nat} {acc : Accuracy}

/-! ## Counts -/

theorem log2_shiftLeft (hn : n ≠ 0) (k : Nat) : (n <<< k).log2 = n.log2 + k := by
  induction k with
  | zero => rfl
  | succ k ih =>
    have hpos : n <<< k ≠ 0 := by simp [Nat.shiftLeft_eq, hn]
    rw [Nat.shiftLeft_succ, Nat.log2_two_mul hpos, ih, Nat.add_assoc]

theorem log2_mono (hm : m ≠ 0) (h : m ≤ n) : m.log2 ≤ n.log2 :=
  (Nat.le_log2 (by omega)).mpr (Nat.le_trans (Nat.log2_self_le hm) h)

theorem quarters_exact_mono (h : m ≤ n) :
    quarters (.ofMantissaAndAccuracy m .exact) ≤ quarters (.ofMantissaAndAccuracy n .exact) := by
  change 4 * m + 2 * 0 + 0 ≤ 4 * n + 2 * 0 + 0
  omega

theorem rounded_exact_mono (h : m ≤ n) (k : Nat) : rounded m .exact k ≤ rounded n .exact k :=
  roundedMantissa_mono (quarters_shiftRight_mono (quarters_exact_mono h) k)

/-- A number shifted to the left until it has 53 bits, unless it has more. -/
def widened (n : Nat) : Nat := n <<< (52 - n.log2)

theorem widened_ne_zero (hn : n ≠ 0) : widened n ≠ 0 := by simp [widened, Nat.shiftLeft_eq, hn]

theorem log2_widened (hn : n ≠ 0) : (widened n).log2 = 52 + (n.log2 - 52) := by
  rw [widened, log2_shiftLeft hn]
  omega

namespace Normal

/-- The normal double that a positive number is rounded to. -/
def ofNat (n : Nat) (hn : n ≠ 0) : Normal :=
  carried (rounded (widened n) .exact (n.log2 - 52)) (n.log2 - 52)
    (rounded_bounds (log2_widened hn) (widened_ne_zero hn) .exact).1
    (rounded_bounds (log2_widened hn) (widened_ne_zero hn) .exact).2

theorem ofNat_mono (hm : m ≠ 0) (hn : n ≠ 0) (h : m ≤ n) : ofNat m hm ≤ ofNat n hn := by
  refine carried_mono ?_
  have hlog := log2_mono hm h
  rcases Nat.eq_or_lt_of_le hlog with heq | hlt
  · refine .inr ⟨by rw [heq], ?_⟩
    rw [heq]
    refine rounded_exact_mono ?_ _
    rw [widened, widened, heq, Nat.shiftLeft_eq, Nat.shiftLeft_eq]
    exact Nat.mul_le_mul_right _ h
  · exact .inl (by omega)

theorem exponent_carried {e : Int} {lower upper} :
    e ≤ (carried m e lower upper).exponent ∧ (carried m e lower upper).exponent ≤ e + 1 := by
  unfold carried
  split <;> simp only <;> omega

theorem exponent_ofNat (hn : n ≠ 0) (h : n < 2 ^ 64) :
    -52 ≤ (ofNat n hn).exponent ∧ (ofNat n hn).exponent ≤ 12 := by
  have hlog : n.log2 < 64 := (Nat.log2_lt hn).mpr h
  obtain ⟨hlow, hhigh⟩ : (n.log2 - 52 : Int) ≤ (ofNat n hn).exponent ∧
    (ofNat n hn).exponent ≤ n.log2 - 52 + 1 := exponent_carried
  omega

theorem round_eq_ofNat (hn : n ≠ 0) : round .binary64 .positive n 0 = (ofNat n hn).unpacked := by
  have htarget : Format.binary64.targetExponent (totalExponent n 0) = n.log2 - 52 := by
    simp [Format.targetExponent, totalExponent, Format.mantissaBits, Format.minExponent]
    omega
  have hshift : (0 - ((n.log2 : Int) - 52)).toNat = 52 - n.log2 := by omega
  have hexponent : (0 : Int) - ((52 - n.log2 : Nat) : Int) + ((n.log2 - 52 : Nat) : Int) =
      n.log2 - 52 := by omega
  unfold UnpackedFloat.round decreaseExponent
  rw [htarget]
  simp only [hshift]
  change roundWithAccuracy .binary64 .positive (widened n) (0 - ((52 - n.log2 : Nat) : Int)) .exact
    = _
  rw [roundWithAccuracy_eq (log2_widened hn) (widened_ne_zero hn) (by omega)]
  simp only [hexponent, ofNat]

end Normal

/-- A count as a double. -/
theorem toFloat_eq_ofNat {n : UInt64} (hn : n.toNat ≠ 0) :
    n.toFloat = (Normal.ofNat n.toNat hn).toFloat := by
  have hpos : compare (n.toNat : Int) 0 = .gt := by
    rw [Int.compare_eq_gt]
    omega
  change Float.ofModel (.pack (normalize .binary64 (n.toNat : Int) 0 .positive)) = _
  unfold UnpackedFloat.normalize
  rw [hpos]
  change Float.ofModel (.pack (round .binary64 .positive n.toNat 0)) = _
  rw [Normal.round_eq_ofNat hn, Normal.toFloat]

/-! ## Quotients -/

namespace Normal

variable {a b : Normal}

/-- One, with the least mantissa of 53 bits. -/
def one : Normal where
  mantissa := 4503599627370496
  exponent := -52
  lower := by decide
  upper := by decide

/-- The mantissa of a quotient, before it is rounded. -/
def quotient (a b : Normal) : Nat := (a.mantissa <<< 53) / b.mantissa

theorem quotient_bounds (a b : Normal) : 2 ^ 52 ≤ quotient a b ∧ quotient a b < 2 ^ 54 := by
  have hpos : 0 < b.mantissa := Nat.lt_of_lt_of_le (by decide) b.lower
  have ha := a.lower
  have ha' := a.upper
  have hb := b.lower
  have hb' := b.upper
  unfold quotient
  rw [Nat.shiftLeft_eq, Nat.le_div_iff_mul_le hpos, Nat.div_lt_iff_lt_mul hpos]
  omega

theorem log2_quotient (a b : Normal) :
    (quotient a b).log2 = 52 + 0 ∨ (quotient a b).log2 = 52 + 1 := by
  obtain ⟨hlow, hhigh⟩ := quotient_bounds a b
  have hne : quotient a b ≠ 0 := by omega
  rcases Nat.lt_or_ge (quotient a b) (2 ^ 53) with h | h
  · exact .inl ((Nat.log2_eq_iff hne).mpr ⟨hlow, h⟩)
  · exact .inr ((Nat.log2_eq_iff hne).mpr ⟨h, hhigh⟩)

/-- Of numbers with the same exponent the smaller one has a shorter quotient, or they are equal
and nothing remains. -/
theorem quotient_lt_or_eq (h : a.mantissa ≤ b.mantissa) :
    quotient a b < 2 ^ 53 ∨ quotient a b = 2 ^ 53 ∧ (a.mantissa <<< 53) % b.mantissa = 0 := by
  have hpos : 0 < b.mantissa := Nat.lt_of_lt_of_le (by decide) b.lower
  unfold quotient
  rw [Nat.shiftLeft_eq]
  rcases Nat.eq_or_lt_of_le h with heq | hlt
  · rw [heq]
    exact .inr ⟨Nat.mul_div_cancel_left _ hpos, Nat.mul_mod_right _ _⟩
  · refine .inl ((Nat.div_lt_iff_lt_mul hpos).mpr ?_)
    rw [Nat.mul_comm]
    exact Nat.mul_lt_mul_of_pos_left hlt (by decide)

theorem carried_le_one {e : Int} {lower upper} (h : e ≤ -53 ∨ e = -52 ∧ m = 2 ^ 52) :
    carried m e lower upper ≤ one := by
  rw [le_iff, one]
  unfold carried
  split <;> simp only <;> omega

theorem divCore_eq (h : -1000 ≤ a.exponent - b.exponent) :
    divCore .binary64 a.mantissa a.exponent b.mantissa b.exponent =
      (quotient a b, a.exponent - b.exponent - 53,
        accuracyOfFraction ((a.mantissa <<< 53) % b.mantissa) b.mantissa) := by
  have htarget : Format.binary64.targetExponent
      (totalExponent a.mantissa a.exponent - totalExponent b.mantissa b.exponent) =
        a.exponent - b.exponent - 53 := by
    simp [Format.targetExponent, totalExponent, Format.mantissaBits, Format.minExponent,
      log2_eq_of_lt a.lower a.upper, log2_eq_of_lt b.lower b.upper]
    omega
  have hmin : min (a.exponent - b.exponent) (a.exponent - b.exponent - 53) =
      a.exponent - b.exponent - 53 := by omega
  have hshift : (a.exponent - b.exponent - (a.exponent - b.exponent - 53)).toNat = 53 := by omega
  unfold divCore
  simp only [htarget, hmin, hshift, quotient]

/-- The quotient of a number by one that is not smaller is rounded to one at most. -/
theorem div_unpacked (h : a ≤ b) (hrange : -1000 ≤ a.exponent - b.exponent) :
    ∃ c : Normal, UnpackedFloat.div .binary64 a.unpacked b.unpacked = c.unpacked ∧ c ≤ one ∧
      -1074 ≤ c.exponent := by
  obtain ⟨hlow, -⟩ := quotient_bounds a b
  have hne : quotient a b ≠ 0 := by omega
  have hdiv : UnpackedFloat.div .binary64 a.unpacked b.unpacked =
      roundWithAccuracy .binary64 .positive (quotient a b) (a.exponent - b.exponent - 53)
        (accuracyOfFraction ((a.mantissa <<< 53) % b.mantissa) b.mantissa) := by
    change (match divCore .binary64 a.mantissa a.exponent b.mantissa b.exponent with
      | (m, e, acc) => roundWithAccuracy .binary64 .positive m e acc) = _
    rw [divCore_eq hrange]
  obtain ⟨k, hk, hlog⟩ : ∃ k ≤ 1, (quotient a b).log2 = 52 + k := by
    rcases log2_quotient a b with hlog | hlog
    · exact ⟨0, by decide, hlog⟩
    · exact ⟨1, by decide, hlog⟩
  rw [hdiv, roundWithAccuracy_eq hlog hne (by omega)]
  refine ⟨_, rfl, carried_le_one ?_, Int.le_trans (by omega) exponent_carried.1⟩
  rw [le_iff] at h
  rcases h with hlt | ⟨heq, hle⟩
  · exact .inl (by omega)
  · -- Only the quotient of equal numbers has a bit too many, and nothing is dropped with it.
    rcases quotient_lt_or_eq hle with hshort | ⟨hone, hexact⟩
    · have hshort' := (Nat.log2_lt hne).mpr hshort
      exact .inl (by omega)
    · have hbits : 53 = 52 + k := by rw [← hlog, hone, Nat.log2_two_pow]
      obtain rfl : k = 1 := by omega
      have hexact' : accuracyOfFraction 0 b.mantissa = .exact := if_pos rfl
      rw [hone, hexact, hexact']
      exact .inr ⟨by omega, rfl⟩

theorem unpacked_le_iff (a b : Normal) : UnpackedFloat.le a.unpacked b.unpacked = true ↔ a ≤ b := by
  rw [le_iff]
  change (((compare a.exponent b.exponent).then (compare a.mantissa b.mantissa)).isLE = true) ↔ _
  rw [Ordering.isLE_then_iff_or, Int.compare_eq_lt, Int.compare_eq_eq, Nat.isLE_compare]

/-- The quotient of a number by one that is not smaller is at most one. -/
theorem div_le_one (h : a ≤ b) (ha : -52 ≤ a.exponent) (hb : b.exponent ≤ 12) :
    a.toFloat / b.toFloat ≤ 1.0 := by
  have hexponent : a.exponent ≤ b.exponent := by
    rw [le_iff] at h
    omega
  obtain ⟨c, hdiv, hone, hlow⟩ := div_unpacked h (by omega)
  have hhigh : c.exponent ≤ -52 := by
    simp only [le_iff, one] at hone
    omega
  refine decide_eq_true (?_ : UnpackedFloat.le (Float.Model.unpack (.pack (UnpackedFloat.div
    .binary64 a.toFloat.toModel.unpack b.toFloat.toModel.unpack))) one.unpacked = true)
  rw [unpack_toFloat a (by omega) (by omega), unpack_toFloat b (by omega) (by omega), hdiv]
  change UnpackedFloat.le c.toFloat.toModel.unpack one.unpacked = true
  rw [unpack_toFloat c hlow (by omega), unpacked_le_iff]
  exact hone

end Normal

/-- A count divided by one that is not smaller is at most one, unless it is divided by zero. -/
theorem toFloat_div_le_one {m n : UInt64} (h : m ≤ n) (hn : n ≠ 0) :
    m.toFloat / n.toFloat ≤ 1.0 := by
  have hn' : n.toNat ≠ 0 := fun hzero => hn (UInt64.toNat_inj.mp hzero)
  obtain ⟨hlow, hhigh⟩ := Normal.exponent_ofNat hn' n.toNat_lt
  by_cases hm : m = 0
  · rw [hm, toFloat_eq_ofNat hn']
    refine decide_eq_true (?_ : UnpackedFloat.le (Float.Model.unpack (.pack (UnpackedFloat.div
      .binary64 (.zero .positive) (Normal.ofNat n.toNat hn').toFloat.toModel.unpack)))
      Normal.one.unpacked = true)
    rw [Normal.unpack_toFloat _ (by omega) (by omega)]
    have hdiv : UnpackedFloat.div .binary64 (.zero .positive) (Normal.ofNat n.toNat hn').unpacked =
      .zero .positive := rfl
    rw [hdiv]
    decide +kernel
  · have hm' : m.toNat ≠ 0 := fun hzero => hm (UInt64.toNat_inj.mp hzero)
    rw [toFloat_eq_ofNat hm', toFloat_eq_ofNat hn']
    exact Normal.div_le_one (Normal.ofNat_mono hm' hn' (UInt64.le_iff_toNat_le.mp h))
      (Normal.exponent_ofNat hm' m.toNat_lt).1 hhigh

end Chargeback
