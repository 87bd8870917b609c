import Mathlib

/-!
# Normal doubles

A positive normal double is a mantissa of 53 bits times a power of two, and such numbers are
ordered by their exponents first. Rounding shifts a longer mantissa to the right; what it drops
is kept in two bits, by which the mantissa is rounded at the end. A mantissa with these two bits
is one number of quarters, and shifting and rounding respect the order of these.

## Main definitions

* `Normal`: a mantissa of 53 bits and an exponent.
* `Normal.carried`: a mantissa that may have become too long by one when it was rounded.
* `roundWithAccuracy_eq`: the normal double that a long mantissa is rounded to.
* `Normal.unpack_toFloat`: a normal double is read back as it was packed.
-/

namespace Chargeback

open Float.Model Float.Model.UnpackedFloat

/-! ## Shifting and rounding -/

/-- A mantissa and the two bits of what was dropped from it, as one number. -/
def quarters (em : ExtendedMantissa) : Nat :=
  4 * em.mantissa + 2 * em.roundBit.toNat + em.stickyBit.toNat

variable {em em' : ExtendedMantissa} {acc : Accuracy} {m m' k : Nat} {e e' : Int}

theorem quarters_shiftRightOne (em : ExtendedMantissa) :
    quarters em.shiftRightOne = 2 * (quarters em / 4) + min 1 (quarters em % 4) := by
  obtain ⟨m, roundBit, stickyBit⟩ := em
  rcases Nat.mod_two_eq_zero_or_one m with h | h <;> cases roundBit <;> cases stickyBit <;>
    simp [quarters, ExtendedMantissa.shiftRightOne, h] <;> omega

/-- What is rounded up is more than a half, or the half of an odd number. -/
theorem roundedMantissa_eq (em : ExtendedMantissa) :
    em.roundedMantissa =
      quarters em / 4 + (quarters em % 4 + 1 + quarters em / 4 % 2) / 4 := by
  obtain ⟨m, roundBit, stickyBit⟩ := em
  cases roundBit <;> cases stickyBit <;>
    simp [quarters, ExtendedMantissa.roundedMantissa, ExtendedMantissa.accuracy,
      Accuracy.roundToNearestEven] <;> omega

theorem quarters_shiftRight_mono (h : quarters em ≤ quarters em') (k : Nat) :
    quarters (em >>> k) ≤ quarters (em' >>> k) := by
  induction k with
  | zero => exact h
  | succ k ih =>
    change quarters (em >>> k).shiftRightOne ≤ quarters (em' >>> k).shiftRightOne
    rw [quarters_shiftRightOne, quarters_shiftRightOne]
    omega

theorem roundedMantissa_mono (h : quarters em ≤ quarters em') :
    em.roundedMantissa ≤ em'.roundedMantissa := by
  rw [roundedMantissa_eq, roundedMantissa_eq]
  have horder : quarters em / 4 < quarters em' / 4 ∨
      quarters em / 4 = quarters em' / 4 ∧ quarters em % 4 ≤ quarters em' % 4 := by omega
  rcases horder with hlt | ⟨heq, hle⟩
  · omega
  · rw [heq]
    omega

theorem mantissa_shiftRight (em : ExtendedMantissa) (k : Nat) :
    (em >>> k).mantissa = em.mantissa / 2 ^ k := by
  induction k with
  | zero => exact (Nat.div_one em.mantissa).symm
  | succ k ih =>
    change (em >>> k).mantissa / 2 = _
    rw [ih, Nat.div_div_eq_div_mul, Nat.pow_succ]

theorem roundedMantissa_bounds (em : ExtendedMantissa) :
    em.mantissa ≤ em.roundedMantissa ∧ em.roundedMantissa ≤ em.mantissa + 1 := by
  obtain ⟨m, roundBit, stickyBit⟩ := em
  cases roundBit <;> cases stickyBit <;>
    simp [ExtendedMantissa.roundedMantissa, ExtendedMantissa.accuracy,
      Accuracy.roundToNearestEven]
  omega

/-! ## Normal doubles -/

/-- A mantissa of 53 bits and an exponent. -/
structure Normal where
  mantissa : Nat
  exponent : Int
  lower : 2 ^ 52 ≤ mantissa
  upper : mantissa < 2 ^ 53

namespace Normal

/-- The order of the numbers that they stand for. -/
def le (a b : Normal) : Prop :=
  a.exponent < b.exponent ∨ a.exponent = b.exponent ∧ a.mantissa ≤ b.mantissa

instance : LE Normal := ⟨le⟩

theorem le_iff (a b : Normal) :
    a ≤ b ↔ a.exponent < b.exponent ∨ a.exponent = b.exponent ∧ a.mantissa ≤ b.mantissa := Iff.rfl

/-- The unpacked positive number. -/
def unpacked (a : Normal) : UnpackedFloat :=
  .finite .positive a.mantissa a.exponent (Nat.lt_of_lt_of_le (by decide) a.lower)

/-- A rounded mantissa and its exponent. When rounding has made the mantissa too long, it is the
next power of two. -/
def carried (m : Nat) (e : Int) (lower : 2 ^ 52 ≤ m) ( _ : m ≤ 2 ^ 53) : Normal :=
  if h : m < 2 ^ 53 then ⟨m, e, lower, h⟩ else ⟨2 ^ 52, e + 1, by decide, by decide⟩

theorem carried_mono {lower upper lower' upper'} (h : e < e' ∨ e = e' ∧ m ≤ m') :
    carried m e lower upper ≤ carried m' e' lower' upper' := by
  unfold carried
  rw [le_iff]
  split <;> split <;> simp only <;> omega

end Normal

/-! ## Rounding to normal doubles -/

theorem log2_eq_of_lt (lower : 2 ^ 52 ≤ m) (upper : m < 2 ^ 53) : m.log2 = 52 :=
  (Nat.log2_eq_iff (by omega)).mpr ⟨lower, upper⟩

/-- A mantissa that is too long is shifted as far as needed. -/
theorem shiftToTargetExponent_of_log2 (hlog : m.log2 = 52 + k) (he : -1074 ≤ e + k)
    (acc : Accuracy) :
    shiftToTargetExponent .binary64 m e acc =
      (ExtendedMantissa.ofMantissaAndAccuracy m acc >>> k, e + k) := by
  have htarget : Format.binary64.targetExponent (totalExponent m e) = e + k := by
    simp [Format.targetExponent, totalExponent, Format.mantissaBits, Format.minExponent, hlog]
    omega
  have hshift : (e + k - e).toNat = k := by omega
  rw [shiftToTargetExponent, htarget, shiftToExponent, hshift]

/-- The mantissa of what is shifted and rounded. -/
def rounded (m : Nat) (acc : Accuracy) (k : Nat) : Nat :=
  (ExtendedMantissa.ofMantissaAndAccuracy m acc >>> k).roundedMantissa

theorem mantissa_ofMantissaAndAccuracy (m : Nat) (acc : Accuracy) :
    (ExtendedMantissa.ofMantissaAndAccuracy m acc).mantissa = m := by
  unfold ExtendedMantissa.ofMantissaAndAccuracy
  split <;> rfl

theorem rounded_bounds (hlog : m.log2 = 52 + k) (hm : m ≠ 0) (acc : Accuracy) :
    2 ^ 52 ≤ rounded m acc k ∧ rounded m acc k ≤ 2 ^ 53 := by
  obtain ⟨hlow, hhigh⟩ := roundedMantissa_bounds (ExtendedMantissa.ofMantissaAndAccuracy m acc >>> k)
  rw [mantissa_shiftRight, mantissa_ofMantissaAndAccuracy] at hlow hhigh
  obtain ⟨hlower, hupper⟩ := (Nat.log2_eq_iff hm).mp hlog
  have hdiv : 2 ^ 52 ≤ m / 2 ^ k := by
    rw [Nat.le_div_iff_mul_le (Nat.two_pow_pos k), ← Nat.pow_add]
    exact hlower
  have hdiv' : m / 2 ^ k < 2 ^ 53 := by
    rw [Nat.div_lt_iff_lt_mul (Nat.two_pow_pos k), ← Nat.pow_add]
    have hbits : 53 + k = 52 + k + 1 := by omega
    rwa [hbits]
  exact ⟨Nat.le_trans hdiv hlow, Nat.le_trans hhigh hdiv'⟩

/-- A rounded mantissa is shifted once more if it has become too long. -/
theorem shiftToTargetExponent_carried (lower : 2 ^ 52 ≤ m) (upper : m ≤ 2 ^ 53) (he : -1074 ≤ e) :
    (shiftToTargetExponent .binary64 m e .exact).1.mantissa =
        (Normal.carried m e lower upper).mantissa ∧
      (shiftToTargetExponent .binary64 m e .exact).2 =
        (Normal.carried m e lower upper).exponent := by
  unfold Normal.carried
  by_cases hm : m < 2 ^ 53
  · rw [shiftToTargetExponent_of_log2 (k := 0) (log2_eq_of_lt lower hm) (by omega), dif_pos hm]
    exact ⟨rfl, Int.add_zero e⟩
  · obtain rfl : m = 2 ^ 53 := by omega
    rw [shiftToTargetExponent_of_log2 (k := 1) (Nat.log2_two_pow) (by omega), dif_neg hm]
    exact ⟨rfl, rfl⟩

/-- A mantissa of at least 53 bits is rounded to one of 53 bits. -/
theorem roundWithAccuracy_eq (hlog : m.log2 = 52 + k) (hm : m ≠ 0) (he : -1074 ≤ e + k)
    (acc : Accuracy) :
    roundWithAccuracy .binary64 .positive m e acc =
      (Normal.carried (rounded m acc k) (e + k) (rounded_bounds hlog hm acc).1
        (rounded_bounds hlog hm acc).2).unpacked := by
  obtain ⟨hlow, hhigh⟩ := rounded_bounds hlog hm acc
  obtain ⟨hmantissa, hexponent⟩ := shiftToTargetExponent_carried hlow hhigh he
  generalize Normal.carried (rounded m acc k) (e + k) hlow hhigh = a at hmantissa hexponent ⊢
  unfold roundWithAccuracy
  rw [shiftToTargetExponent_of_log2 hlog he]
  change (if h : (shiftToTargetExponent .binary64 (rounded m acc k) (e + k) .exact).1.mantissa = 0
    then zero .positive else finite .positive _
      (shiftToTargetExponent .binary64 (rounded m acc k) (e + k) .exact).2
      (Nat.pos_of_ne_zero h)) = _
  have hpos : a.mantissa ≠ 0 := Nat.ne_of_gt (Nat.lt_of_lt_of_le (by decide) a.lower)
  simp only [hmantissa, hexponent, hpos, dif_neg, not_false_eq_true, Normal.unpacked]

/-! ## Packing -/

/-- The first bit of a mantissa is not packed, and is put back when it is unpacked. -/
theorem toNat_one_append (lower : 2 ^ 52 ≤ m) (upper : m < 2 ^ 53) :
    (1#1 ++ BitVec.ofNat 52 m).toNat = m := by
  rw [BitVec.toNat_append, ← Nat.shiftLeft_add_eq_or_of_lt (BitVec.ofNat 52 m).isLt]
  change 2 ^ 52 + m % 2 ^ 52 = m
  omega

theorem unpack_packComponents (lower : 2 ^ 52 ≤ m) (upper : m < 2 ^ 53) (hk : k ≠ 0)
    (hk' : k < 2047) :
    UnpackedFloat.unpack .binary64
        (packComponents .binary64 .positive (BitVec.ofNat 11 k) (BitVec.ofNat 52 m)) =
      .finite .positive m (k - 1075) (Nat.lt_of_lt_of_le (by decide) lower) := by
  have hbiased : (BitVec.ofNat 11 k).toNat = k := Nat.mod_eq_of_lt (by omega)
  have hfull : BitVec.ofNat 11 k ≠ -1#11 := fun h => by
    have hall := congrArg BitVec.toNat h
    rw [hbiased] at hall
    exact absurd hall (Nat.ne_of_lt hk')
  have hempty : BitVec.ofNat 11 k ≠ 0#11 := fun h => by
    have hnone := congrArg BitVec.toNat h
    rw [hbiased] at hnone
    exact hk hnone
  unfold UnpackedFloat.unpack
  simp only [unpackMantissa_packComponents, unpackExponent_packComponents,
    unpackSign_packComponents, Sign.ofBitVec_toBitVec, hfull, hempty, if_false, hbiased,
    toNat_one_append lower upper]
  rfl

namespace Normal

/-- The double that a normal number is packed into. -/
def toFloat (a : Normal) : Float := .ofModel (.pack a.unpacked)

/-- A normal double is read back as it was packed, unless it is too large or too small for one. -/
theorem unpack_toFloat (a : Normal) (hlow : -1074 ≤ a.exponent) (hhigh : a.exponent ≤ 971) :
    a.toFloat.toModel.unpack = a.unpacked := by
  obtain ⟨m, e, lower, upper⟩ := a
  simp only at hlow hhigh
  obtain ⟨k, hk⟩ : ∃ k : Nat, e + 1075 = k := ⟨(e + 1075).toNat, by omega⟩
  obtain rfl : e = k - 1075 := by omega
  have hbiased : ((k : Int) - 1075 + (Format.binary64.exponentBias : Int) +
      (Format.binary64.mantissaBitsWithoutImplicit : Int)).toNat = k := by
    change ((k : Int) - 1075 + 1023 + 52).toNat = k
    omega
  have hbits : 52 + 1 = Format.binary64.mantissaBits := rfl
  change UnpackedFloat.unpack .binary64 (UnpackedFloat.pack .binary64 (unpacked _)) = _
  unfold unpacked UnpackedFloat.pack
  simp only [hbiased, log2_eq_of_lt lower upper, hbits, if_true]
  rw [if_neg (by omega)]
  exact unpack_packComponents lower upper (by omega) (by omega)

end Normal

end Chargeback
