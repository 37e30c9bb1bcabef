import Mathlib
import Descent.Proofs.Numbers.Canonical

namespace Descent.Binary64

open Float.Model
open UnpackedFloat (ExtendedMantissa Accuracy Sign.ofBitVec)

theorem log2_two_pow_mul (k : Nat) {m : Nat} (positive : 0 < m) : (2 ^ k * m).log2 = m.log2 + k := by
  obtain ⟨low, high⟩ := (Nat.log2_eq_iff positive.ne').1 rfl
  rw [Nat.log2_eq_iff (by positivity), add_right_comm, pow_add, pow_add, mul_comm (2 ^ k)]
  exact ⟨Nat.mul_le_mul_right _ low, Nat.mul_lt_mul_of_pos_right high (by positivity)⟩

theorem shiftRight_two_pow_mul (k m : Nat) :
    Nat.repeat ExtendedMantissa.shiftRightOne k ⟨2 ^ k * m, false, false⟩ = ⟨m, false, false⟩ := by
  induction k generalizing m with
  | zero => simp [Nat.repeat]
  | succ k ih =>
      have last := ih (2 * m)
      rw [Nat.repeat, pow_succ, mul_assoc, last]
      simp [ExtendedMantissa.shiftRightOne]

theorem targetExponent_eq (m : Nat) (e : Int) :
    Format.binary64.targetExponent (totalExponent m e) = max (m.log2 + e - 52) (-1074) := by
  have width : (Format.binary64.mantissaBits : Int) = 53 := rfl
  have least : Format.binary64.minExponent = -1074 := rfl
  rw [Format.targetExponent, totalExponent, width, least]
  omega

theorem shiftToTargetExponent_eq {k m : Nat} {e : Int} (positive : 0 < m) (whole : m.log2 = 52)
    (normal : -1074 ≤ e + k) :
    UnpackedFloat.shiftToTargetExponent Format.binary64 (2 ^ k * m) e .exact = (⟨m, false, false⟩, e + k) := by
  have target : Format.binary64.targetExponent (totalExponent (2 ^ k * m) e) = e + k := by
    rw [targetExponent_eq, log2_two_pow_mul k positive, whole]
    omega
  have amount : (e + k - e).toNat = k := by omega
  simp only [UnpackedFloat.shiftToTargetExponent, UnpackedFloat.shiftToExponent, target, amount,
    ExtendedMantissa.ofMantissaAndAccuracy, HShiftRight.hShiftRight, shiftRight_two_pow_mul]

theorem roundWithAccuracy_eq {s : UnpackedFloat.Sign} {k m : Nat} {e : Int} (positive : 0 < m)
    (whole : m.log2 = 52) (normal : -1074 ≤ e + k) :
    UnpackedFloat.roundWithAccuracy Format.binary64 s (2 ^ k * m) e .exact = .finite s m (e + k) positive := by
  have again := shiftToTargetExponent_eq (k := 0) (e := e + k) positive whole (by omega)
  simp only [pow_zero, one_mul, Nat.cast_zero, add_zero] at again
  simp only [UnpackedFloat.roundWithAccuracy, shiftToTargetExponent_eq positive whole normal,
    ExtendedMantissa.roundedMantissa, ExtendedMantissa.accuracy, Accuracy.roundToNearestEven, again,
    dif_neg positive.ne']

def PositiveAt (e : Int) (x : Float) : Prop :=
  ∃ m positive, x.toModel.unpack = .finite .positive m e positive

theorem unpack_pack_infinite {m : Nat} {e : Int} {positive : 0 < m} (beyond : 971 < e) :
    (Float.Model.pack (.finite .positive m e positive)).unpack = .infinity .positive := by
  have full : 2 ^ Format.binary64.exponentBits ≤ (e + Format.binary64.exponentBias +
      Format.binary64.mantissaBitsWithoutImplicit).toNat + 1 := by
    have bias : (Format.binary64.exponentBias : Int) = 1023 := rfl
    have width : (Format.binary64.mantissaBitsWithoutImplicit : Int) = 52 := rfl
    have bits : 2 ^ Format.binary64.exponentBits = 2048 := rfl
    omega
  simp only [Float.Model.unpack, Float.Model.pack, UnpackedFloat.pack, if_pos full]
  rfl

theorem PositiveAt.double {e : Int} {x : Float} (size : PositiveAt e x) (normal : -1074 < e) :
    PositiveAt (e + 1) (Float.ofNat 2 * x) ∨ (Float.ofNat 2 * x).toModel.unpack = .infinity .positive := by
  obtain ⟨m, positive, taken⟩ := size
  have canonical := (canonical_of_unpack taken).1
  have whole := canonical.log2_eq normal
  have two : (Float.ofNat 2).toModel.unpack = .finite .positive (2 ^ 52) (-51) (by decide) := rfl
  have moved : (-51 : Int) + e + (52 : Nat) = e + 1 := by omega
  have product : (Float.ofNat 2 * x).toModel = Float.Model.pack (.finite .positive m (e + 1) positive) := by
    rw [toModel_mul, two, taken, UnpackedFloat.mul, roundWithAccuracy_eq positive whole (by omega), moved]
    rfl
  rw [PositiveAt, product]
  by_cases room : e + 1 ≤ 971
  · exact .inl ⟨_, _, unpack_pack ⟨canonical.narrow, by omega, fun _ => canonical.full normal⟩ room⟩
  · exact .inr (unpack_pack_infinite (by omega))

theorem PositiveAt.le {e : Int} {x : Float} (size : PositiveAt e x) : e ≤ 971 := by
  obtain ⟨m, positive, taken⟩ := size
  exact (canonical_of_unpack taken).2

theorem PositiveAt.of_not_lt {e : Int} {x y : Float} (size : PositiveAt e x) (above : ¬y < x)
    (finite : Scalar.isFinite y = true) : ∃ e' ≥ e, PositiveAt e' y := by
  obtain ⟨m, positive, taken⟩ := size
  have nan : Scalar.isNaN y = y.toModel.unpack.isNaN := rfl
  have infinite : Scalar.isInfinite y = y.toModel.unpack.isInf := rfl
  rw [lt_iff, taken] at above
  rw [Scalar.isFinite, nan, infinite] at finite
  cases taken' : y.toModel.unpack with
  | notANumber =>
      rw [taken'] at finite
      cases finite
  | infinity s =>
      rw [taken'] at finite
      cases finite
  | zero s =>
      rw [taken'] at above
      cases s <;> exact absurd rfl above
  | finite s m' e' positive' =>
      rw [taken'] at above
      cases s with
      | negative => exact absurd rfl above
      | positive =>
          refine ⟨e', ?_, m', positive', taken'⟩
          by_contra below
          have first : compare e' e = .lt := compare_lt_iff_lt.2 (not_le.1 below)
          apply above
          rw [UnpackedFloat.lt, UnpackedFloat.compare, first]
          rfl

theorem PositiveAt.larger_double {e e' : Int} {x y : Float} (size : PositiveAt e x) (size' : PositiveAt e' y)
    (normal : -1074 < e) (above : e' ≤ e)
    (finite : Scalar.isFinite (Scalar.larger (Float.ofNat 2 * x) y) = true) :
    PositiveAt (e + 1) (Scalar.larger (Float.ofNat 2 * x) y) := by
  obtain ⟨m', positive', taken'⟩ := size'
  rcases size.double normal with doubled | infinite
  · have least : ¬Float.ofNat 2 * x < y := by
      intro below
      obtain ⟨m, positive, taken⟩ := doubled
      have behind : compare (e + 1) e' = .gt := compare_gt_iff_gt.2 (Int.lt_add_one_of_le above)
      have compared := lt_iff.1 below
      rw [taken, taken', UnpackedFloat.lt, UnpackedFloat.compare, behind] at compared
      cases compared
    rw [Scalar.larger, if_neg least]
    exact doubled
  · have least : ¬Float.ofNat 2 * x < y := by
      intro below
      have compared := lt_iff.1 below
      rw [infinite, taken'] at compared
      cases compared
    rw [Scalar.larger, if_neg least] at finite
    have number : Scalar.isFinite (Float.ofNat 2 * x) = (!(Float.ofNat 2 * x).toModel.unpack.isNaN &&
      !(Float.ofNat 2 * x).toModel.unpack.isInf) := rfl
    rw [number, infinite] at finite
    cases finite

end Descent.Binary64
