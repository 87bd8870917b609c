import Chargeback.Proofs.Double.Quotient

/-!
# Whole numbers in doubles

A whole number below `2 ^ 53` is a double, and so are the sums and the products of such numbers
that stay below it: shifting drops nothing but zeros, so that nothing is rounded. Counts of hours
and of days are such numbers.

## Main definitions

* `whole`: a whole number as an unpacked double.
* `toFloat_add`, `toFloat_mul`: sums and products of whole numbers are exact.
-/

namespace Chargeback

open Float.Model Float.Model.UnpackedFloat

variable {m n k t : Nat} {x y : Float}

/-! ## Shifting and back -/

theorem quarters_shiftRight_shiftLeft (m k : Nat) :
    quarters (ExtendedMantissa.ofMantissaAndAccuracy (m <<< k) .exact >>> k) = 4 * m := by
  induction k generalizing m with
  | zero => rfl
  | succ k ih =>
    change quarters (ExtendedMantissa.ofMantissaAndAccuracy (m <<< (k + 1)) .exact
      >>> k).shiftRightOne = 4 * m
    have htwice : m <<< (k + 1) = (2 * m) <<< k := by
      simp only [Nat.shiftLeft_eq, Nat.pow_succ']
      ring
    rw [quarters_shiftRightOne, htwice, ih]
    omega

theorem rounded_shiftLeft (m k : Nat) : rounded (m <<< k) .exact k = m := by
  rw [rounded, roundedMantissa_eq, quarters_shiftRight_shiftLeft]
  omega

namespace Normal

/-- A number of 53 bits at most is not rounded. -/
theorem ofNat_of_lt (hn : n ≠ 0) (h : n < 2 ^ 53) :
    (ofNat n hn).mantissa = widened n ∧ (ofNat n hn).exponent = n.log2 - 52 := by
  have hlog : n.log2 < 53 := (Nat.log2_lt hn).mpr h
  have hshort : n.log2 - 52 = 0 := by omega
  have hexact : rounded (widened n) .exact (n.log2 - 52) = widened n := by
    rw [hshort]
    exact rounded_shiftLeft (widened n) 0
  have hlong : widened n < 2 ^ 53 := by
    rw [← Nat.log2_lt (widened_ne_zero hn), log2_widened hn]
    omega
  unfold ofNat carried
  simp only [hexact]
  rw [dif_pos hlong]
  exact ⟨rfl, rfl⟩

/-- What has been shifted to the left is shifted back without a loss. -/
theorem roundWithAccuracy_shiftLeft (hn : n ≠ 0) (h : n < 2 ^ 53) (ht : 52 - n.log2 ≤ t)
    (ht' : t ≤ 1000) :
    roundWithAccuracy .binary64 .positive (n <<< t) (-t) .exact = (ofNat n hn).unpacked := by
  have hlog : n.log2 < 53 := (Nat.log2_lt hn).mpr h
  have hshort : n.log2 - 52 = 0 := by omega
  obtain ⟨k, rfl⟩ : ∃ k, t = 52 - n.log2 + k := ⟨t - (52 - n.log2), by omega⟩
  have hne : n <<< (52 - n.log2 + k) ≠ 0 := by simp [Nat.shiftLeft_eq, hn]
  have hbits : (n <<< (52 - n.log2 + k)).log2 = 52 + k := by
    rw [log2_shiftLeft hn]
    omega
  have hback : rounded (n <<< (52 - n.log2 + k)) .exact k =
      rounded (widened n) .exact (n.log2 - 52) := by
    rw [Nat.shiftLeft_add, ← widened, rounded_shiftLeft, hshort]
    exact (rounded_shiftLeft (widened n) 0).symm
  have hexponent : -((52 - n.log2 + k : Nat) : Int) + k = n.log2 - 52 := by omega
  rw [roundWithAccuracy_eq hbits hne (by omega)]
  simp only [hback, hexponent, ofNat]

/-- A number that has been shifted somewhat to the left is shifted as far as needed, and back. -/
theorem round_shiftLeft (hn : n ≠ 0) (h : n < 2 ^ 53) (ht : t ≤ 1000) :
    round .binary64 .positive (n <<< t) (-t) = (ofNat n hn).unpacked := by
  have htarget : Format.binary64.targetExponent (totalExponent (n <<< t) (-t)) = n.log2 - 52 := by
    simp [Format.targetExponent, totalExponent, Format.mantissaBits, Format.minExponent,
      log2_shiftLeft hn]
    omega
  have hshift : (-(t : Int) - (n.log2 - 52)).toNat = 52 - n.log2 - t := by omega
  have hexponent : -(t : Int) - ((52 - n.log2 - t : Nat) : Int) =
      -((t + (52 - n.log2 - t) : Nat) : Int) := by omega
  unfold UnpackedFloat.round decreaseExponent
  simp only [htarget, hshift, ← Nat.shiftLeft_add, hexponent]
  exact roundWithAccuracy_shiftLeft hn h (by omega) (by omega)

end Normal

/-! ## Whole numbers -/

/-- A whole number as an unpacked double. -/
def whole (n : Nat) : UnpackedFloat :=
  if hn : n = 0 then .zero .positive else (Normal.ofNat n hn).unpacked

theorem whole_of_ne_zero (hn : n ≠ 0) : whole n = (Normal.ofNat n hn).unpacked := dif_neg hn

/-- A whole number has been shifted to the left until it has 53 bits. -/
theorem whole_eq_finite (hn : n ≠ 0) (h : n < 2 ^ 53) :
    ∃ s hpos, whole n = .finite .positive (n <<< s) (-(s : Int)) hpos ∧ s = 52 - n.log2 := by
  have hlog : n.log2 < 53 := (Nat.log2_lt hn).mpr h
  obtain ⟨hmantissa, hexponent⟩ := Normal.ofNat_of_lt hn h
  have hexponent' : (Normal.ofNat n hn).exponent = -((52 - n.log2 : Nat) : Int) := by omega
  refine ⟨52 - n.log2, Nat.pos_of_ne_zero (widened_ne_zero hn), ?_, rfl⟩
  rw [whole_of_ne_zero hn, Normal.unpacked]
  simp only [hmantissa, hexponent']
  rfl

theorem normalize_natCast (hn : n ≠ 0) (e : Int) :
    UnpackedFloat.normalize .binary64 n e .positive = round .binary64 .positive n e := by
  have hpos : compare (n : Int) 0 = .gt := by
    rw [Int.compare_eq_gt]
    omega
  unfold UnpackedFloat.normalize
  rw [hpos]
  rfl

theorem add_whole (h : m + n < 2 ^ 53) :
    UnpackedFloat.add .binary64 (whole m) (whole n) = whole (m + n) := by
  by_cases hm : m = 0
  · subst hm
    by_cases hn : n = 0
    · subst hn
      rfl
    · obtain ⟨s, hpos, hwhole, -⟩ := whole_eq_finite hn (by omega)
      rw [Nat.zero_add, hwhole]
      rfl
  · by_cases hn : n = 0
    · subst hn
      obtain ⟨s, hpos, hwhole, -⟩ := whole_eq_finite hm (by omega)
      rw [Nat.add_zero, hwhole]
      rfl
    · obtain ⟨s, hpos, hleft, hs⟩ := whole_eq_finite hm (by omega)
      obtain ⟨s', hpos', hright, hs'⟩ := whole_eq_finite hn (by omega)
      -- Both are shifted to the place of the one that has been shifted further.
      have hmin : min (-(s : Int)) (-(s' : Int)) = -((max s s' : Nat) : Int) := by omega
      have hshift : (-(s : Int) - -((max s s' : Nat) : Int)).toNat = max s s' - s := by omega
      have hshift' : (-(s' : Int) - -((max s s' : Nat) : Int)).toNat = max s s' - s' := by omega
      have hsum : (m <<< s) <<< (max s s' - s) + (n <<< s') <<< (max s s' - s') =
          (m + n) <<< max s s' := by
        rw [← Nat.shiftLeft_add, ← Nat.shiftLeft_add, Nat.add_sub_cancel' (Nat.le_max_left s s'),
          Nat.add_sub_cancel' (Nat.le_max_right s s')]
        simp only [Nat.shiftLeft_eq, Nat.add_mul]
      have hadd : UnpackedFloat.add .binary64 (whole m) (whole n) =
          UnpackedFloat.normalize .binary64 (((m + n) <<< max s s' : Nat) : Int)
            (-((max s s' : Nat) : Int)) .positive := by
        rw [hleft, hright, ← hsum, Nat.cast_add]
        simp only [UnpackedFloat.add, decreaseExponent, hmin, hshift, hshift']
        rfl
      have hne : m + n ≠ 0 := by omega
      have hne' : (m + n) <<< max s s' ≠ 0 := by simp [Nat.shiftLeft_eq, hm]
      rw [hadd, normalize_natCast hne', Normal.round_shiftLeft hne h (by omega),
        whole_of_ne_zero hne]

theorem mul_whole (hm : m < 2 ^ 53) (hn : n < 2 ^ 53) (h : m * n < 2 ^ 53) :
    UnpackedFloat.mul .binary64 (whole m) (whole n) = whole (m * n) := by
  by_cases hm0 : m = 0
  · subst hm0
    by_cases hn0 : n = 0
    · subst hn0
      rfl
    · obtain ⟨s, hpos, hwhole, -⟩ := whole_eq_finite hn0 hn
      rw [Nat.zero_mul, hwhole]
      rfl
  · by_cases hn0 : n = 0
    · subst hn0
      obtain ⟨s, hpos, hwhole, -⟩ := whole_eq_finite hm0 hm
      rw [Nat.mul_zero, hwhole]
      rfl
    · obtain ⟨s, hpos, hleft, hs⟩ := whole_eq_finite hm0 hm
      obtain ⟨s', hpos', hright, hs'⟩ := whole_eq_finite hn0 hn
      have hne : m * n ≠ 0 := Nat.mul_ne_zero hm0 hn0
      have hlog : m.log2 ≤ (m * n).log2 := log2_mono hm0 (Nat.le_mul_of_pos_right m (by omega))
      have hproduct : (m <<< s) * (n <<< s') = (m * n) <<< (s + s') := by
        simp only [Nat.shiftLeft_eq, Nat.pow_add]
        ring
      have hexponent : -(s : Int) + -(s' : Int) = -((s + s' : Nat) : Int) := by omega
      have hmul : UnpackedFloat.mul .binary64 (whole m) (whole n) =
          roundWithAccuracy .binary64 .positive ((m * n) <<< (s + s')) (-((s + s' : Nat) : Int))
            .exact := by
        rw [hleft, hright, ← hproduct, ← hexponent]
        rfl
      rw [hmul, Normal.roundWithAccuracy_shiftLeft hne h (by omega) (by omega),
        whole_of_ne_zero hne]

/-! ## Whole doubles -/

/-- A whole number that was packed is unpacked again. -/
theorem unpack_pack_whole (h : n < 2 ^ 53) :
    (Float.ofModel (.pack (whole n))).toModel.unpack = whole n := by
  by_cases hn : n = 0
  · subst hn
    rfl
  · obtain ⟨hlow, hhigh⟩ := Normal.exponent_ofNat hn (by omega)
    rw [whole_of_ne_zero hn]
    exact Normal.unpack_toFloat _ (by omega) (by omega)

theorem uint64_toFloat_eq {n : UInt64} : n.toFloat = Float.ofModel (.pack (whole n.toNat)) := by
  by_cases hn : n.toNat = 0
  · obtain rfl : n = 0 := UInt64.toNat_inj.mp hn
    decide +kernel
  · rw [toFloat_eq_ofNat hn, whole_of_ne_zero hn, Normal.toFloat]

theorem mul_of_whole (hx : x.toModel.unpack = whole m) (hy : y.toModel.unpack = whole n)
    (hm : m < 2 ^ 53) (hn : n < 2 ^ 53) (h : m * n < 2 ^ 53) :
    x * y = Float.ofModel (.pack (whole (m * n))) := by
  change Float.ofModel (.pack (UnpackedFloat.mul .binary64 x.toModel.unpack y.toModel.unpack)) = _
  rw [hx, hy, mul_whole hm hn h]

theorem toFloat_eq_pack (h : n < 2 ^ 53) : n.toFloat = Float.ofModel (.pack (whole n)) := by
  have hword : n.toUInt64.toNat = n := Nat.mod_eq_of_lt (by omega)
  have hone : Float.exactlyRepresentablePowersOfTen[0].toModel.unpack = whole 1 := by rfl
  have hcount : n.toUInt64.toFloat.toModel.unpack = whole n := by
    rw [uint64_toFloat_eq, hword, unpack_pack_whole h]
  -- A number of this size is read as a word times the zeroth power of ten.
  have hread : n.toFloat = n.toUInt64.toFloat * Float.exactlyRepresentablePowersOfTen[0] :=
    dif_pos ⟨h, by decide⟩
  rw [hread, mul_of_whole hcount hone h (by decide) (by omega), Nat.mul_one]

theorem unpack_toFloat (h : n < 2 ^ 53) : n.toFloat.toModel.unpack = whole n := by
  rw [toFloat_eq_pack h, unpack_pack_whole h]

/-- Whole numbers are added without an error. -/
theorem toFloat_add (h : m + n < 2 ^ 53) : m.toFloat + n.toFloat = (m + n).toFloat := by
  change Float.ofModel (.pack (UnpackedFloat.add .binary64 m.toFloat.toModel.unpack
    n.toFloat.toModel.unpack)) = _
  rw [unpack_toFloat (by omega), unpack_toFloat (by omega), add_whole h, toFloat_eq_pack h]

/-- Whole numbers are multiplied without an error. -/
theorem toFloat_mul (hm : m < 2 ^ 53) (hn : n < 2 ^ 53) (h : m * n < 2 ^ 53) :
    m.toFloat * n.toFloat = (m * n).toFloat := by
  rw [mul_of_whole (unpack_toFloat hm) (unpack_toFloat hn) hm hn h, toFloat_eq_pack h]

end Chargeback
