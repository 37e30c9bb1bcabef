import Mathlib
import Descent.Proofs.Exact

namespace Descent

class ExactField (α : Type) extends ExactSums α, Field α, LinearOrder α, IsStrictOrderedRing α where
  ofNat_eq : ∀ n : Nat, Scalar.ofNat n = (n : α)
  abs_eq : ∀ a : α, Scalar.abs a = |a|
  isNaN_eq : ∀ a : α, Scalar.isNaN a = false
  isInfinite_eq : ∀ a : α, Scalar.isInfinite a = false

instance : ExactField ℚ where
  __ := (inferInstance : ExactSums ℚ)
  __ := (inferInstance : Field ℚ)
  __ := (inferInstance : LinearOrder ℚ)
  __ := (inferInstance : IsStrictOrderedRing ℚ)
  ofNat_eq _ := rfl
  abs_eq _ := rfl
  isNaN_eq _ := rfl
  isInfinite_eq _ := rfl

/-- Exact numbers with square roots, none of them beyond all multiples of another. -/
class ExactReal (α : Type) extends ExactField α where
  sqrt_nonneg : ∀ a : α, 0 ≤ Scalar.sqrt a
  sqrt_mul_self : ∀ a : α, 0 ≤ a → Scalar.sqrt a * Scalar.sqrt a = a
  archimedean : Archimedean α

noncomputable instance : Scalar ℝ where
  decideLT := inferInstance
  decideLE := inferInstance
  ofNat n := n
  abs a := |a|
  sqrt := Real.sqrt
  isNaN _ := false
  isInfinite _ := false

noncomputable instance : ExactSums ℝ where
  add_assoc := add_assoc
  zero_add := zero_add
  add_zero := add_zero
  add_comm := add_comm
  nsmul := nsmulRec

noncomputable instance : ExactReal ℝ where
  __ := (inferInstance : ExactSums ℝ)
  __ := (inferInstance : Field ℝ)
  __ := (inferInstance : LinearOrder ℝ)
  __ := (inferInstance : IsStrictOrderedRing ℝ)
  ofNat_eq _ := rfl
  abs_eq _ := rfl
  isNaN_eq _ := rfl
  isInfinite_eq _ := rfl
  sqrt_nonneg := Real.sqrt_nonneg
  sqrt_mul_self _ := Real.mul_self_sqrt
  archimedean := inferInstance

namespace Scalar

variable {α : Type} [ExactField α]

theorem ratio_eq (part whole : Nat) : (ratio part whole : α) = part / whole := by
  rw [ratio, ExactField.ofNat_eq, ExactField.ofNat_eq]

theorem isFinite_eq_true (a : α) : isFinite a = true := by
  rw [isFinite, ExactField.isNaN_eq, ExactField.isInfinite_eq]
  rfl

theorem same_iff {a b : α} : same a b = true ↔ a = b := by
  rw [same, Bool.and_eq_true, decide_eq_true_iff, decide_eq_true_iff]
  exact le_antisymm_iff.symm

theorem smaller_eq (a b : α) : smaller a b = min a b := by
  rw [smaller]
  split
  · rename_i below
    exact (min_eq_right_of_lt below).symm
  · rename_i above
    exact (min_eq_left (not_lt.1 above)).symm

theorem larger_eq (a b : α) : larger a b = max a b := by
  rw [larger]
  split
  · rename_i below
    exact (max_eq_right_of_lt below).symm
  · rename_i above
    exact (max_eq_left (not_lt.1 above)).symm

theorem infimum_eq (a b : α) : infimum a b = min a b := by
  simp [infimum, ExactField.isNaN_eq, smaller_eq]

theorem supremum_eq (a b : α) : supremum a b = max a b := by
  simp [supremum, ExactField.isNaN_eq, larger_eq]

theorem ratio_pos {part whole : Nat} (some : 0 < part) (finite : 0 < whole) : 0 < (ratio part whole : α) := by
  rw [ratio_eq]
  exact div_pos (Nat.cast_pos.2 some) (Nat.cast_pos.2 finite)

theorem sqrt_pos {α : Type} [ExactReal α] {x : α} (positive : 0 < x) : 0 < sqrt x := by
  refine (ExactReal.sqrt_nonneg x).lt_of_ne' fun zero => ?_
  have root := ExactReal.sqrt_mul_self x positive.le
  rw [zero, mul_zero] at root
  exact positive.ne root

end Scalar

end Descent
