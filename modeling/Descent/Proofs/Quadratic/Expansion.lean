import Mathlib
import Descent.Proofs.Linear.Definite

namespace Descent

open Matrix

variable {α : Type} [ExactField α] {n : Nat}

structure Quadratic (value : (Fin n → α) → α) (gradient : (Fin n → α) → Fin n → α)
    (h : Matrix (Fin n) (Fin n) α) : Prop where
  symmetric : h.IsSymm
  value_add : ∀ x p, value (x + p) = value x + gradient x ⬝ᵥ p + p ⬝ᵥ h *ᵥ p / 2
  gradient_add : ∀ x p, gradient (x + p) = gradient x + h *ᵥ p

namespace Quadratic

variable {value : (Fin n → α) → α} {gradient : (Fin n → α) → Fin n → α} {h : Matrix (Fin n) (Fin n) α}

theorem constant (c : α) : Quadratic (fun _ : Fin n → α => c) (fun _ => 0) 0 where
  symmetric := isSymm_zero
  value_add x p := by simp
  gradient_add x p := by simp

theorem add {value' : (Fin n → α) → α} {gradient' : (Fin n → α) → Fin n → α}
    {h' : Matrix (Fin n) (Fin n) α} (first : Quadratic value gradient h)
    (second : Quadratic value' gradient' h') :
    Quadratic (fun x => value x + value' x) (fun x => gradient x + gradient' x) (h + h') where
  symmetric := first.symmetric.add second.symmetric
  value_add x p := by
    rw [first.value_add, second.value_add, add_dotProduct, add_mulVec, dotProduct_add]
    ring
  gradient_add x p := by
    rw [first.gradient_add, second.gradient_add, add_mulVec]
    abel

theorem sum {ι : Type} {values : ι → (Fin n → α) → α} {gradients : ι → (Fin n → α) → Fin n → α}
    {hs : ι → Matrix (Fin n) (Fin n) α} (s : Finset ι)
    (each : ∀ i ∈ s, Quadratic (values i) (gradients i) (hs i)) :
    Quadratic (fun x => ∑ i ∈ s, values i x) (fun x => ∑ i ∈ s, gradients i x) (∑ i ∈ s, hs i) := by
  classical
  induction s using Finset.induction_on with
  | empty => simpa using constant (n := n) (0 : α)
  | insert i s fresh ih =>
      rw [Finset.forall_mem_insert] at each
      simpa only [Finset.sum_insert fresh] using each.1.add (ih each.2)

theorem half_square {r : (Fin n → α) → α} {a : Fin n → α} (affine : ∀ x p, r (x + p) = r x + a ⬝ᵥ p) :
    Quadratic (fun x => r x * r x / 2) (fun x => r x • a) (vecMulVec a a) where
  symmetric := by
    ext i j
    simp only [transpose_apply, vecMulVec_apply, mul_comm]
  value_add x p := by
    rw [affine, smul_dotProduct, vecMulVec_mulVec, op_smul_eq_smul, dotProduct_smul, dotProduct_comm p a,
      smul_eq_mul, smul_eq_mul]
    ring
  gradient_add x p := by
    rw [affine, add_smul, vecMulVec_mulVec, op_smul_eq_smul]

variable (quadratic : Quadratic value gradient h) {x y p : Fin n → α} (solves : h *ᵥ p = -gradient x)

include quadratic

theorem least (positive : PositiveDefinite h) (flat : gradient x = 0) (other : y ≠ x) : value x < value y := by
  have above := positive (y - x) (sub_ne_zero.2 other)
  have expanded := quadratic.value_add x (y - x)
  rw [add_sub_cancel, flat, zero_dotProduct, add_zero] at expanded
  rw [expanded]
  exact lt_add_of_pos_right _ (half_pos above)

include solves

theorem gradient_step : gradient (x + p) = 0 := by
  rw [quadratic.gradient_add, solves, add_neg_cancel]

theorem value_step : value (x + p) = value x + gradient x ⬝ᵥ p / 2 := by
  rw [quadratic.value_add, solves, dotProduct_neg, dotProduct_comm p]
  ring

end Quadratic

end Descent
