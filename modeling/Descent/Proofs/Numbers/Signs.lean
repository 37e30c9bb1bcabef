import Mathlib
import Descent.Proofs.Numbers.Squares

namespace Descent.Binary64

open Float.Model

section

variable {a : Float}

theorem isNaN_eq (a : Float) : a.isNaN = a.toModel.unpack.isNaN := rfl

theorem isFinite_eq (a : Float) : a.isFinite = a.toModel.unpack.isFinite := rfl

theorem unpack_zero : (0 : Float).toModel.unpack = .zero .positive := rfl

theorem not_lt_zero_iff : ¬a < 0 ↔ 0 ≤ a ∨ a.isNaN = true := by
  rw [lt_iff, le_iff, isNaN_eq, unpack_zero]
  cases a.toModel.unpack with
  | notANumber | zero => decide +revert
  | infinity s => cases s <;> decide
  | finite s m e positive =>
      cases s <;> simp [UnpackedFloat.lt, UnpackedFloat.le, UnpackedFloat.compare, UnpackedFloat.isNaN]

theorem not_le_zero_iff : ¬a ≤ 0 ↔ 0 < a ∨ a.isNaN = true := by
  rw [lt_iff, le_iff, isNaN_eq, unpack_zero]
  cases a.toModel.unpack with
  | notANumber | zero => decide +revert
  | infinity s => cases s <;> decide
  | finite s m e positive =>
      cases s <;> simp [UnpackedFloat.lt, UnpackedFloat.le, UnpackedFloat.compare, UnpackedFloat.isNaN]

theorem known_of_zero_le (above : 0 ≤ a) : a.isNaN = false := by
  rw [le_iff, unpack_zero] at above
  rw [isNaN_eq]
  cases taken : a.toModel.unpack with
  | notANumber =>
      rw [taken] at above
      cases above
  | _ => rfl

theorem known_of_pos (above : 0 < a) : a.isNaN = false := by
  rw [isNaN_eq]
  rcases positive_iff.1 above with taken | ⟨_, _, _, _, taken, -⟩ <;>
  · rw [taken]
    rfl

end

theorem unpack_packComponents_positive {exponent : BitVec 11} (mantissa : BitVec 52) (bounded : exponent ≠ -1#11) :
    let u := UnpackedFloat.unpack Format.binary64
      (UnpackedFloat.packComponents Format.binary64 .positive exponent mantissa)
    u = .zero .positive ∨ ∃ m e positive, u = .finite .positive m e positive := by
  simp only [UnpackedFloat.unpack, UnpackedFloat.unpackExponent_packComponents,
    UnpackedFloat.unpackMantissa_packComponents, UnpackedFloat.unpackSign_packComponents,
    UnpackedFloat.Sign.ofBitVec_toBitVec, if_neg bounded]
  split
  · split
    · exact .inl rfl
    · rename_i nonzero
      exact .inr ⟨_, _, Nat.pos_of_ne_zero fun zero => nonzero (BitVec.eq_of_toNat_eq zero), rfl⟩
  · exact .inr ⟨_, _, by rw [toNat_append]; positivity, rfl⟩

theorem pos_of_unpack {x : Float} {m : Nat} {e : Int} {positive : 0 < m}
    (taken : x.toModel.unpack = .finite .positive m e positive) : 0 < x :=
  positive_iff.2 (.inr ⟨_, m, e, positive, taken, rfl⟩)

theorem pos_or_zero_of_pack {x : Float} {m : Nat} {e : Int} {positive : 0 < m}
    (packed : x.toModel = Float.Model.pack (.finite .positive m e positive)) :
    0 < x ∨ x.toModel.unpack = .zero .positive := by
  generalize biased : (e + Format.binary64.exponentBias + Format.binary64.mantissaBitsWithoutImplicit).toNat = k
  have bits : 2 ^ Format.binary64.exponentBits = 2048 := rfl
  have components (exponent : BitVec 11) (mantissa : BitVec 52) (bounded : exponent ≠ -1#11)
      (same : UnpackedFloat.pack Format.binary64 (.finite .positive m e positive) =
        UnpackedFloat.packComponents Format.binary64 .positive exponent mantissa) :
      0 < x ∨ x.toModel.unpack = .zero .positive := by
    have taken : x.toModel.unpack = UnpackedFloat.unpack Format.binary64
        (UnpackedFloat.packComponents Format.binary64 .positive exponent mantissa) := by
      rw [packed, ← same]
      rfl
    rcases unpack_packComponents_positive mantissa bounded with zero | ⟨_, _, _, finite⟩
    · exact .inr (taken.trans zero)
    · exact .inl (pos_of_unpack (taken.trans finite))
  by_cases full : 2 ^ Format.binary64.exponentBits ≤ k + 1
  · refine .inl (positive_iff.2 (.inl ?_))
    rw [packed]
    simp only [Float.Model.unpack, Float.Model.pack, UnpackedFloat.pack, biased, if_pos full]
    rfl
  · by_cases long : m.log2 + 1 = Format.binary64.mantissaBits
    · refine components (.ofNat 11 k) (.ofNat 52 m) (fun same => ?_) ?_
      · have ones := congrArg BitVec.toNat same
        rw [BitVec.toNat_ofNat, Nat.mod_eq_of_lt (by omega)] at ones
        have top : (-1#11).toNat = 2047 := rfl
        omega
      · simp only [UnpackedFloat.pack, biased, if_neg full, if_pos long]
    · refine components 0#11 (.ofNat 52 m) (by decide) ?_
      simp only [UnpackedFloat.pack, biased, if_neg full, if_neg long]

theorem roundWithAccuracy_sign (s : UnpackedFloat.Sign) (m : Nat) (e : Int) (accuracy : UnpackedFloat.Accuracy) :
    let u := UnpackedFloat.roundWithAccuracy Format.binary64 s m e accuracy
    u = .zero s ∨ ∃ m' e' positive, u = .finite s m' e' positive := by
  simp only [UnpackedFloat.roundWithAccuracy]
  split
  · exact .inl rfl
  · rename_i nonzero
    exact .inr ⟨_, _, Nat.pos_of_ne_zero nonzero, rfl⟩

theorem zero_lt_of_one_lt {x : Float} (large : 1 < x) : 0 < x := by
  rw [lt_iff] at large
  have one : (1 : Float).toModel.unpack = .finite .positive (2 ^ 52) (-52) (by decide) := rfl
  rw [one] at large
  cases taken : x.toModel.unpack with
  | notANumber | zero s =>
      rw [taken] at large
      cases large
  | infinity s =>
      cases s with
      | positive => exact positive_iff.2 (.inl taken)
      | negative =>
          rw [taken] at large
          cases large
  | finite s m e positive =>
      cases s with
      | positive => exact pos_of_unpack taken
      | negative =>
          rw [taken] at large
          cases large

theorem pos_or_zero_div {x y : Float} (left : 0 < x) (right : 0 < y) (finite : y.isFinite = true) :
    0 < x / y ∨ (x / y).toModel.unpack = .zero .positive := by
  have quotient : (x / y).toModel =
      Float.Model.pack (UnpackedFloat.div Format.binary64 x.toModel.unpack y.toModel.unpack) := rfl
  rw [isFinite_eq] at finite
  rcases positive_iff.1 right with infinite | ⟨_, m₂, e₂, positive₂, taken₂, -⟩
  · rw [infinite] at finite
    cases finite
  rcases positive_iff.1 left with infinite | ⟨_, m₁, e₁, positive₁, taken₁, -⟩
  · refine .inl (positive_iff.2 (.inl ?_))
    rw [quotient, infinite, taken₂]
    exact unpack_pack_of_not_finite rfl
  obtain ⟨m, e, accuracy, rounds⟩ : ∃ m e accuracy, (x / y).toModel =
      Float.Model.pack (UnpackedFloat.roundWithAccuracy Format.binary64 .positive m e accuracy) := by
    rw [taken₁, taken₂] at quotient
    exact ⟨_, _, _, quotient⟩
  rcases roundWithAccuracy_sign .positive m e accuracy with zero | ⟨_, _, _, rounded⟩
  · refine .inr ?_
    rw [rounds, zero]
    exact UnpackedFloat.unpack_packedZero
  · exact pos_or_zero_of_pack (rounds.trans (congrArg Float.Model.pack rounded))

theorem nan_div {x : Float} (nan : x.isNaN = true) (y : Float) : (x / y).isNaN = true := by
  have quotient : (x / y).toModel =
      Float.Model.pack (UnpackedFloat.div Format.binary64 x.toModel.unpack y.toModel.unpack) := rfl
  have unpacked : UnpackedFloat.div Format.binary64 .notANumber y.toModel.unpack = .notANumber := by
    cases y.toModel.unpack <;> rfl
  rw [isNaN_eq] at nan ⊢
  cases taken : x.toModel.unpack with
  | notANumber =>
      rw [quotient, taken, unpacked]
      rfl
  | _ =>
      rw [taken] at nan
      cases nan

theorem unpack_neg (x : Float) : (-x).toModel.unpack = x.toModel.unpack.neg :=
  unpack_pack_of_abs_eq (x := x.toModel) (by cases x.toModel.unpack <;> rfl)

theorem cases_of_finite {x : Float} (finite : x.isFinite = true) :
    (∃ s, x.toModel.unpack = .zero s) ∨ ∃ s m e positive, x.toModel.unpack = .finite s m e positive := by
  rw [isFinite_eq] at finite
  cases taken : x.toModel.unpack with
  | notANumber | infinity s =>
      rw [taken] at finite
      cases finite
  | zero s => exact .inl ⟨s, rfl⟩
  | finite s m e positive => exact .inr ⟨s, m, e, positive, rfl⟩

theorem finite_neg {x : Float} (finite : x.isFinite = true) : (-x).isFinite = true := by
  rw [isFinite_eq, unpack_neg]
  rcases cases_of_finite finite with ⟨s, taken⟩ | ⟨s, m, e, positive, taken⟩ <;>
  · rw [taken]
    rfl

theorem finite_abs {x : Float} (finite : x.isFinite = true) : x.abs.isFinite = true := by
  rw [isFinite_eq, unpack_abs]
  rcases cases_of_finite finite with ⟨s, taken⟩ | ⟨s, m, e, positive, taken⟩ <;>
  · rw [taken]
    rfl

theorem same_self {x : Float} (finite : x.isFinite = true) : Scalar.same x x = true := by
  rw [same_eq]
  rcases cases_of_finite finite with ⟨s, taken⟩ | ⟨s, m, e, positive, taken⟩ <;> rw [taken]
  · rfl
  · cases s <;> simp [UnpackedFloat.le, UnpackedFloat.compare]

theorem same_add_mul {a x p : Float} {s : UnpackedFloat.Sign} (zero : a.toModel.unpack = .zero s)
    (finite : x.isFinite = true) (finite' : p.isFinite = true) : Scalar.same (x + a * p) x = true := by
  obtain ⟨s', none⟩ : ∃ s', (a * p).toModel.unpack = .zero s' := by
    rcases cases_of_finite finite' with ⟨s', taken⟩ | ⟨s', m, e, positive, taken⟩ <;>
    · refine ⟨s * s', unpack_mul_of_zero ?_⟩
      rw [zero, taken]
      rfl
  rcases add_zero (x := x) none with same | ⟨negative, same⟩
  · rw [same]
    exact same_self finite
  · rw [same, negative]
    decide

end Descent.Binary64
