import Mathlib
import Descent.Scalar

namespace Descent.Binary64

open Float.Model

theorem pack_unpack (x : Float.Model) : Float.Model.pack x.unpack = x := by
  obtain ⟨bits, valid⟩ := x
  simp only [Float.Model.pack, Float.Model.unpack, UnpackedFloat.pack_unpack_of_valid valid]

theorem eq_of_unpack {x y : Float} (same : x.toModel.unpack = y.toModel.unpack) : x = y := by
  have models : x.toModel = y.toModel := by rw [← pack_unpack x.toModel, same, pack_unpack]
  exact congrArg Float.ofModel models

theorem zero_mul (p : Float) (finite : p.isFinite = true) :
    ∃ s, ((0 : Float) * p).toModel.unpack = .zero s := by
  have product : ((0 : Float) * p).toModel =
      Float.Model.pack (UnpackedFloat.mul Format.binary64 (.zero .positive) p.toModel.unpack) := rfl
  rw [product]
  have finite : p.toModel.unpack.isFinite = true := finite
  cases taken : p.toModel.unpack with
  | infinity s =>
      rw [taken] at finite
      cases finite
  | notANumber =>
      rw [taken] at finite
      cases finite
  | zero s => exact ⟨_, UnpackedFloat.unpack_packedZero⟩
  | finite s m e positive => exact ⟨_, UnpackedFloat.unpack_packedZero⟩

theorem add_zero {x z : Float} {s : UnpackedFloat.Sign} (zero : z.toModel.unpack = .zero s) :
    x + z = x ∨ x = -0.0 ∧ x + z = 0.0 := by
  have sum : x + z = .ofModel
      (Float.Model.pack (UnpackedFloat.add Format.binary64 x.toModel.unpack z.toModel.unpack)) := rfl
  have same : x = .ofModel (Float.Model.pack x.toModel.unpack) := by rw [pack_unpack]
  rw [sum, zero]
  cases taken : x.toModel.unpack with
  | infinity s' =>
      rw [taken] at same
      exact .inl same.symm
  | notANumber =>
      rw [taken] at same
      exact .inl same.symm
  | finite s' m e positive =>
      rw [taken] at same
      exact .inl same.symm
  | zero s' =>
      rw [taken] at same
      cases s' <;> cases s
      · exact .inl same.symm
      · exact .inr ⟨same.trans (by decide), by decide⟩
      · exact .inl same.symm
      · exact .inl same.symm

theorem add_zero_mul (x p : Float) (finite : p.isFinite = true) :
    x + 0 * p = x ∨ x = -0.0 ∧ x + 0 * p = 0.0 :=
  have ⟨_, zero⟩ := zero_mul p finite
  add_zero zero

theorem unpacked_add_nan (x : UnpackedFloat) :
    UnpackedFloat.add Format.binary64 x .notANumber = .notANumber := by
  cases x <;> rfl

theorem unpacked_nan_add (x : UnpackedFloat) :
    UnpackedFloat.add Format.binary64 .notANumber x = .notANumber := by
  cases x <;> rfl

theorem nan_of_not_finite (x p : Float) (infinite : p.isFinite = false) :
    (x + 0 * p).isNaN = true := by
  have product : ((0 : Float) * p).toModel =
      Float.Model.pack (UnpackedFloat.mul Format.binary64 (.zero .positive) p.toModel.unpack) := rfl
  have infinite : p.toModel.unpack.isFinite = false := infinite
  have nan : ((0 : Float) * p).toModel.unpack = .notANumber := by
    rw [product]
    cases taken : p.toModel.unpack with
    | infinity s => cases s <;> rfl
    | notANumber => rfl
    | _ =>
        rw [taken] at infinite
        cases infinite
  have sum : (x + 0 * p).isNaN = (Float.Model.pack (UnpackedFloat.add Format.binary64
      x.toModel.unpack ((0 : Float) * p).toModel.unpack)).unpack.isNaN := rfl
  rw [sum, nan, unpacked_add_nan]
  rfl

theorem not_nan_of_le {a b : Float} (below : a ≤ b) : a.isNaN = false := by
  have below : a.toModel.unpack.le b.toModel.unpack = true := of_decide_eq_true below
  have nan : a.isNaN = a.toModel.unpack.isNaN := rfl
  rw [nan]
  cases taken : a.toModel.unpack with
  | notANumber =>
      rw [taken] at below
      cases below
  | _ => rfl

end Descent.Binary64
