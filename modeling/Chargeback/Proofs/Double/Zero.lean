import Chargeback.Proofs.Double.Normal

/-!
# Adding nothing in doubles

A finite double times zero is a zero, and a zero added to a double leaves it as it is; only the
negative zero becomes the positive one. But no sum comes out as the negative zero, unless all of
its parts are: what is not zero exactly is never rounded to zero, since the parts are multiples
of the smallest double.

## Main definitions

* `IsMinusZero`: the negative zero.
* `not_isMinusZero_add`: a sum is not the negative zero, unless its parts are.
* `add_of_isZero`: a zero that is added leaves a double as it is.
* `add_mul_of_isZero`: so does a finite double times zero.
-/

namespace Chargeback

open Float.Model Float.Model.UnpackedFloat

variable {m k : Nat} {e : Int} {s s' : Sign} {acc : Accuracy} {x y : Float}

/-! ## Rounding away from zero -/

/-- No number that is a multiple of the smallest double is shifted below 53 bits. -/
theorem shiftToTargetExponent_of_le (he : -1074 ≤ e) (acc : Accuracy) :
    shiftToTargetExponent .binary64 m e acc =
      (ExtendedMantissa.ofMantissaAndAccuracy m acc >>> (m.log2 - 52),
        e + ((m.log2 - 52 : Nat) : Int)) := by
  have hshift : (Format.binary64.targetExponent (totalExponent m e) - e).toNat = m.log2 - 52 := by
    simp [Format.targetExponent, totalExponent, Format.mantissaBits, Format.minExponent]
    omega
  unfold shiftToTargetExponent shiftToExponent
  simp only [hshift]

/-- What is left of a positive number is positive, and it has 53 bits at most. -/
theorem shifted_bounds (hm : m ≠ 0) :
    0 < m / 2 ^ (m.log2 - 52) ∧ m / 2 ^ (m.log2 - 52) < 2 ^ 53 := by
  constructor
  · refine Nat.div_pos ?_ (Nat.two_pow_pos _)
    exact Nat.le_trans (Nat.pow_le_pow_right (by decide) (Nat.sub_le _ _)) (Nat.log2_self_le hm)
  · rw [Nat.div_lt_iff_lt_mul (Nat.two_pow_pos _), ← Nat.pow_add]
    exact Nat.lt_of_lt_of_le Nat.lt_log2_self (Nat.pow_le_pow_right (by decide) (by omega))

/-- A finite number that is not zero, and not finer than doubles are. -/
def IsRounded (s : Sign) (u : UnpackedFloat) : Prop :=
  ∃ m e h, u = .finite s m e h ∧ m < 2 ^ 53 ∧ -1074 ≤ e

theorem roundWithAccuracy_isRounded (hm : m ≠ 0) (he : -1074 ≤ e) :
    IsRounded s (roundWithAccuracy .binary64 s m e acc) := by
  have hfirst := (shifted_bounds hm).1
  have hup := (roundedMantissa_bounds
    (ExtendedMantissa.ofMantissaAndAccuracy m acc >>> (m.log2 - 52))).1
  rw [mantissa_shiftRight, mantissa_ofMantissaAndAccuracy] at hup
  unfold roundWithAccuracy
  rw [shiftToTargetExponent_of_le he]
  simp only
  generalize (ExtendedMantissa.ofMantissaAndAccuracy m acc >>> (m.log2 - 52)).roundedMantissa = r
    at hup
  obtain ⟨hpos, hlt⟩ := shifted_bounds (m := r) (by omega)
  rw [shiftToTargetExponent_of_le (by omega)]
  simp only [mantissa_shiftRight, mantissa_ofMantissaAndAccuracy]
  rw [dif_neg (by omega)]
  exact ⟨_, _, _, rfl, hlt, by omega⟩

theorem round_isRounded (hm : m ≠ 0) (he : -1074 ≤ e) : IsRounded s (round .binary64 s m e) := by
  have htarget : -1074 ≤ Format.binary64.targetExponent (totalExponent m e) := by
    simp [Format.targetExponent, Format.mantissaBits, Format.minExponent]
  unfold UnpackedFloat.round decreaseExponent
  refine roundWithAccuracy_isRounded ?_ ?_
  · simp [Nat.shiftLeft_eq, hm]
  · omega

/-! ## Packing -/

/-- Only zeros are packed as zeros. -/
theorem unpack_pack_ne_zero {u : UnpackedFloat} (h : IsRounded s u) (s' : Sign) :
    UnpackedFloat.unpack .binary64 (UnpackedFloat.pack .binary64 u) ≠ .zero s' := by
  obtain ⟨m, e, hm, rfl, hlt, he⟩ := h
  rw [Ne, unpack_eq_zero_iff_of_valid valid_pack]
  intro hzero
  have hexponent := congrArg unpackExponent hzero
  have hmantissa := congrArg unpackMantissa hzero
  have hbiased : (e + (Format.binary64.exponentBias : Int) +
      (Format.binary64.mantissaBitsWithoutImplicit : Int)).toNat = (e + 1075).toNat := by
    change (e + 1023 + 52).toNat = _
    omega
  unfold UnpackedFloat.pack packedZero at hexponent hmantissa
  simp only [hbiased] at hexponent hmantissa
  split at hexponent
  next =>
    rw [packedInfinity, unpackExponent_packComponents, unpackExponent_packComponents] at hexponent
    exact absurd hexponent (by decide)
  next hfits =>
    rw [if_neg hfits] at hmantissa
    split at hexponent
    next =>
      rw [unpackExponent_packComponents, unpackExponent_packComponents] at hexponent
      have hnone : (e + 1075).toNat % 2 ^ 11 = 0 := congrArg BitVec.toNat hexponent
      omega
    next hshort =>
      rw [if_neg hshort, unpackMantissa_packComponents, unpackMantissa_packComponents]
        at hmantissa
      have hnone : m % 2 ^ 52 = 0 := congrArg BitVec.toNat hmantissa
      have hlog : m.log2 ≠ 52 := fun hlog => hshort (congrArg (· + 1) hlog)
      exact hlog (log2_eq_of_lt (by omega) hlt)

/-- Doubles are multiples of the smallest one. -/
theorem exponent_unpack {b : BitVec Format.binary64.numBits} {h : 0 < m}
    (hb : UnpackedFloat.unpack .binary64 b = .finite s m e h) : -1074 ≤ e := by
  have hbias : (Format.binary64.exponentBias : Int) = 1023 := rfl
  unfold UnpackedFloat.unpack at hb
  simp only [hbias] at hb
  split at hb
  next => split at hb <;> cases hb
  next =>
    split at hb
    next hzero =>
      split at hb
      next => cases hb
      next =>
        cases hb
        omega
    next hne =>
      cases hb
      have hpos : (unpackExponent b).toNat ≠ 0 := fun hzero => hne (BitVec.eq_of_toNat_eq hzero)
      omega

/-! ## Sums -/

/-- The negative zero. -/
def IsMinusZero (x : Float) : Prop := x.toModel.unpack = .zero .negative

theorem unpack_add (x y : Float) :
    (x + y).toModel.unpack = UnpackedFloat.unpack .binary64 (UnpackedFloat.pack .binary64
      (UnpackedFloat.add .binary64 x.toModel.unpack y.toModel.unpack)) := rfl

theorem pack_unpack_toModel (x : Float) : Float.ofModel (.pack x.toModel.unpack) = x :=
  Float.ofBits_toBits x

theorem unpack_pack_unpack (x : Float) :
    UnpackedFloat.unpack .binary64 (UnpackedFloat.pack .binary64 x.toModel.unpack) =
      x.toModel.unpack :=
  congrArg (fun x => x.toModel.unpack) (pack_unpack_toModel x)

/-- A zero that is added leaves a double as it is, unless this is the negative zero. -/
theorem add_of_isZero (hx : ¬IsMinusZero x) (hy : y.toModel.unpack = .zero s) : x + y = x := by
  have hadd : UnpackedFloat.add .binary64 x.toModel.unpack y.toModel.unpack = x.toModel.unpack := by
    rw [hy]
    cases hu : x.toModel.unpack with
    | notANumber => rfl
    | infinity sign => rfl
    | finite sign m e h => rfl
    | zero sign =>
      cases sign with
      | negative => exact absurd hu hx
      | positive => cases s <;> rfl
  calc x + y = .ofModel (.pack (UnpackedFloat.add .binary64 x.toModel.unpack y.toModel.unpack)) := rfl
    _ = x := by rw [hadd, pack_unpack_toModel]

/-- Numbers that are not finer than doubles do not add up to the negative zero. -/
theorem unpack_pack_normalize_ne {M : Int} (he : -1074 ≤ e) :
    UnpackedFloat.unpack .binary64
      (UnpackedFloat.pack .binary64 (normalize .binary64 M e .positive)) ≠ .zero .negative := by
  unfold UnpackedFloat.normalize
  cases hsign : compare M 0 with
  | lt =>
    rw [Int.compare_eq_lt] at hsign
    exact unpack_pack_ne_zero (round_isRounded (s := .negative) (by omega) he) _
  | eq =>
    simp [UnpackedFloat.pack]
  | gt =>
    rw [Int.compare_eq_gt] at hsign
    exact unpack_pack_ne_zero (round_isRounded (s := .positive) (by omega) he) _

/-- A sum is not the negative zero, unless both parts are. -/
theorem not_isMinusZero_add (hx : ¬IsMinusZero x) (y : Float) : ¬IsMinusZero (x + y) := by
  have hleft := unpack_pack_unpack x
  have hright := unpack_pack_unpack y
  unfold IsMinusZero at hx ⊢
  rw [unpack_add]
  cases hu : x.toModel.unpack with
  | notANumber => simp [UnpackedFloat.add, UnpackedFloat.pack]
  | infinity sign =>
    have hsum : UnpackedFloat.unpack .binary64 (UnpackedFloat.pack .binary64 (infinity sign)) ≠
        .zero .negative := by
      rw [hu] at hleft
      exact hleft.trans_ne nofun
    cases hv : y.toModel.unpack with
    | infinity sign' =>
      change UnpackedFloat.unpack .binary64 (UnpackedFloat.pack .binary64
        (if sign == sign' then .infinity sign else .notANumber)) ≠ _
      split
      next => exact hsum
      next => simp [UnpackedFloat.pack]
    | notANumber => simp [UnpackedFloat.add, UnpackedFloat.pack]
    | zero sign' => exact hsum
    | finite sign' m e h => exact hsum
  | zero sign =>
    obtain rfl : sign = .positive := by
      cases sign
      · exact absurd hu hx
      · rfl
    cases hv : y.toModel.unpack with
    | notANumber => simp [UnpackedFloat.add, UnpackedFloat.pack]
    | zero sign' => cases sign' <;> simp [UnpackedFloat.add, UnpackedFloat.pack]
    | infinity sign' =>
      rw [hv] at hright
      exact hright.trans_ne nofun
    | finite sign' m e h =>
      rw [hv] at hright
      exact hright.trans_ne nofun
  | finite sign m e h =>
    cases hv : y.toModel.unpack with
    | notANumber => simp [UnpackedFloat.add, UnpackedFloat.pack]
    | zero sign' =>
      rw [hu] at hleft
      exact hleft.trans_ne nofun
    | infinity sign' =>
      rw [hv] at hright
      exact hright.trans_ne nofun
    | finite sign' m' e' h' =>
      have he := exponent_unpack hu
      have he' := exponent_unpack hv
      exact unpack_pack_normalize_ne (by omega)

/-! ## Products -/

/-- A finite double times zero is zero. -/
theorem mul_isZero (hx : x.isFinite) (hy : y.toModel.unpack = .zero s) :
    ∃ s', (x * y).toModel.unpack = .zero s' := by
  have hmul : ∃ s', UnpackedFloat.mul .binary64 x.toModel.unpack y.toModel.unpack = .zero s' := by
    change x.toModel.unpack.isFinite = true at hx
    rw [hy]
    cases hu : x.toModel.unpack with
    | notANumber =>
      rw [hu] at hx
      cases hx
    | infinity sign =>
      rw [hu] at hx
      cases hx
    | zero sign => exact ⟨_, rfl⟩
    | finite sign m e h => exact ⟨_, rfl⟩
  obtain ⟨s', hzero⟩ := hmul
  refine ⟨s', ?_⟩
  change UnpackedFloat.unpack .binary64 (UnpackedFloat.pack .binary64
    (UnpackedFloat.mul .binary64 x.toModel.unpack y.toModel.unpack)) = _
  rw [hzero]
  exact unpack_packedZero

/-- So what costs nothing does not change a sum of costs. -/
theorem add_mul_of_isZero (hx : ¬IsMinusZero x) {z : Float} (hz : z.isFinite)
    (hy : y.toModel.unpack = .zero s) : x + z * y = x := by
  obtain ⟨s', hzero⟩ := mul_isZero hz hy
  exact add_of_isZero hx hzero

end Chargeback
