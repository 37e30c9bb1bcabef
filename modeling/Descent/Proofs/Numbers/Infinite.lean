import Mathlib
import Descent.Proofs.Numbers.Fractions

namespace Descent.Binary64

open Float.Model

theorem unpack_pack_of_not_finite {u : UnpackedFloat} (infinite : u.isFinite = false) :
    (Float.Model.pack u).unpack = u := by
  cases u with
  | notANumber => rfl
  | infinity s => cases s <;> rfl
  | _ => cases infinite

theorem infinite_mul {x r : Float} {part : Nat} (infinite : x.toModel.unpack = .infinity .positive)
    (counts : Counts r part) : (x * r).toModel.unpack = .infinity .positive := by
  obtain ⟨m, e, positive, taken, -⟩ := counts
  rw [toModel_mul, infinite, taken]
  exact unpack_pack_of_not_finite rfl

theorem not_finite_of_mul {x y : Float} (infinite : x.toModel.unpack = .infinity .positive) :
    (x * y).toModel.unpack.isFinite = false := by
  have unbounded : (UnpackedFloat.mul Format.binary64 (.infinity .positive) y.toModel.unpack).isFinite = false := by
    cases y.toModel.unpack <;> rfl
  rw [toModel_mul, infinite, unpack_pack_of_not_finite unbounded, unbounded]

theorem add_of_not_finite {u v : UnpackedFloat} (finite : u.isFinite = true) (infinite : v.isFinite = false) :
    UnpackedFloat.add Format.binary64 u v = v := by
  cases v with
  | notANumber => exact unpacked_add_nan u
  | infinity s =>
      cases u with
      | notANumber | infinity => cases finite
      | zero | finite => rfl
  | zero | finite => cases infinite

theorem not_finite_of_add {x y : Float} (finite : x.toModel.unpack.isFinite = true)
    (infinite : y.toModel.unpack.isFinite = false) : (x + y).toModel.unpack.isFinite = false := by
  rw [toModel_add, add_of_not_finite finite infinite, unpack_pack_of_not_finite infinite, infinite]

theorem not_le_of_not_finite {u v : UnpackedFloat} (finite : u.isFinite = true) (infinite : v.isFinite = false) :
    (v.le u && u.le v) = false := by
  cases v with
  | notANumber => rfl
  | infinity s =>
      cases u with
      | notANumber | infinity => cases finite
      | zero | finite => cases s <;> rfl
  | zero | finite => cases infinite

theorem not_same_of_not_finite {x y : Float} (finite : x.toModel.unpack.isFinite = true)
    (infinite : y.toModel.unpack.isFinite = false) : Scalar.same y x = false := by
  rw [same_eq, not_le_of_not_finite finite infinite]

theorem ne_nan_of_finite {x : Float} (finite : x.toModel.unpack.isFinite = true) :
    x.toModel.unpack ≠ .notANumber := by
  rintro nan
  rw [nan] at finite
  cases finite

theorem finite_of_pack {u : UnpackedFloat} (finite : (Float.Model.pack u).unpack.isFinite = true) :
    u.isFinite = true := by
  by_contra infinite
  have infinite := Bool.eq_false_of_not_eq_true infinite
  rw [unpack_pack_of_not_finite infinite, infinite] at finite
  cases finite

theorem finite_of_add {x y : Float} (finite : (x + y).toModel.unpack.isFinite = true) :
    x.toModel.unpack.isFinite = true ∧ y.toModel.unpack.isFinite = true := by
  rw [toModel_add] at finite
  have finite := finite_of_pack finite
  cases taken : x.toModel.unpack with
  | notANumber =>
      rw [taken, unpacked_nan_add] at finite
      cases finite
  | infinity s =>
      rw [taken] at finite
      cases taken' : y.toModel.unpack with
      | infinity s' =>
          rw [taken'] at finite
          cases s <;> cases s' <;> cases finite
      | notANumber | zero _ | finite _ _ _ _ =>
          rw [taken'] at finite
          cases finite
  | zero _ | finite _ _ _ _ =>
      rw [taken] at finite
      cases taken' : y.toModel.unpack with
      | notANumber | infinity _ =>
          rw [taken'] at finite
          cases finite
      | zero _ | finite _ _ _ _ => exact ⟨rfl, rfl⟩

theorem finite_of_mul {x y : Float} (finite : (x * y).toModel.unpack.isFinite = true) :
    x.toModel.unpack.isFinite = true ∧ y.toModel.unpack.isFinite = true := by
  rw [toModel_mul] at finite
  have finite := finite_of_pack finite
  cases taken : x.toModel.unpack <;> cases taken' : y.toModel.unpack <;> rw [taken, taken'] at finite <;>
    first | exact ⟨rfl, rfl⟩ | cases finite

theorem finite_of_foldl {l : List Float} {c : Float} (finite : (l.foldl (· + ·) c).toModel.unpack.isFinite = true) :
    c.toModel.unpack.isFinite = true ∧ ∀ a ∈ l, a.toModel.unpack.isFinite = true := by
  induction l generalizing c with
  | nil => exact ⟨finite, fun a member => by cases member⟩
  | cons a rest ih =>
      obtain ⟨sum, all⟩ := ih finite
      obtain ⟨first, second⟩ := finite_of_add sum
      exact ⟨first, List.forall_mem_cons.2 ⟨second, all⟩⟩

end Descent.Binary64
