import Mathlib
import Descent.Proofs.ExactField

namespace Descent

open Matrix

variable {α : Type} [ExactField α] {n : Nat}

def PositiveDefinite (a : Matrix (Fin n) (Fin n) α) : Prop := ∀ x : Fin n → α, x ≠ 0 → 0 < x ⬝ᵥ a *ᵥ x

theorem single_ne_zero (k : Fin n) : (Pi.single k 1 : Fin n → α) ≠ 0 := by
  intro zero
  have entry := congrFun zero k
  rw [Pi.single_eq_same] at entry
  exact one_ne_zero entry

theorem dotProduct_self_pos {x : Fin n → α} (nonzero : x ≠ 0) : 0 < x ⬝ᵥ x := by
  obtain ⟨i, entry⟩ := Function.ne_iff.1 nonzero
  exact Finset.sum_pos' (fun j _ => mul_self_nonneg (x j)) ⟨i, Finset.mem_univ i, mul_self_pos.2 entry⟩

namespace PositiveDefinite

variable {a b : Matrix (Fin n) (Fin n) α}

theorem mulVec_ne_zero (positive : PositiveDefinite a) {x : Fin n → α} (nonzero : x ≠ 0) : a *ᵥ x ≠ 0 := by
  intro zero
  have above := positive x nonzero
  simp [zero] at above

theorem eq_of_mulVec_eq (positive : PositiveDefinite a) {x y : Fin n → α} (same : a *ᵥ x = a *ᵥ y) :
    x = y := by
  by_contra apart
  apply positive.mulVec_ne_zero (sub_ne_zero.2 apart)
  rw [mulVec_sub, same, sub_self]

theorem descends (positive : PositiveDefinite a) {g p : Fin n → α} (solves : a *ᵥ p = -g)
    (nonzero : g ≠ 0) : g ⬝ᵥ p < 0 := by
  have moves : p ≠ 0 := by
    rintro rfl
    apply nonzero
    simpa using solves.symm
  have above := positive p moves
  rw [solves, dotProduct_neg, dotProduct_comm] at above
  exact neg_pos.1 above

theorem diagonal (positive : PositiveDefinite a) (i : Fin n) : 0 < a i i := by
  simpa using positive (Pi.single i 1) (single_ne_zero i)

theorem smul_one {c : α} (positive : 0 < c) : PositiveDefinite (c • (1 : Matrix (Fin n) (Fin n) α)) := by
  intro x nonzero
  rw [smul_mulVec, one_mulVec, dotProduct_smul, smul_eq_mul]
  exact mul_pos positive (dotProduct_self_pos nonzero)

theorem add_smul_one {c : α} (large : ∑ i, ∑ j, |a i j| < c) :
    PositiveDefinite (a + c • (1 : Matrix (Fin n) (Fin n) α)) := by
  intro x nonzero
  have square := dotProduct_self_pos nonzero
  have entry (i : Fin n) : x i * x i ≤ x ⬝ᵥ x :=
    Finset.single_le_sum (fun j _ => mul_self_nonneg (x j)) (Finset.mem_univ i)
  have product (i j : Fin n) : -(|a i j| * (x ⬝ᵥ x)) ≤ x i * (a i j * x j) := by
    have mixed : |x i * x j| ≤ x ⬝ᵥ x := by
      rw [abs_le]
      constructor <;> linarith [entry i, entry j, mul_self_nonneg (x i - x j), mul_self_nonneg (x i + x j)]
    calc -(|a i j| * (x ⬝ᵥ x)) ≤ -(|a i j| * |x i * x j|) :=
          neg_le_neg (mul_le_mul_of_nonneg_left mixed (abs_nonneg _))
      _ = -|a i j * (x i * x j)| := by rw [abs_mul (a i j)]
      _ ≤ a i j * (x i * x j) := neg_abs_le _
      _ = x i * (a i j * x j) := mul_left_comm _ _ _
  -- the form is above minus the sum of all entries, which the multiple of the identity outweighs
  have form : -((∑ i, ∑ j, |a i j|) * (x ⬝ᵥ x)) ≤ x ⬝ᵥ a *ᵥ x := by
    have expanded : x ⬝ᵥ a *ᵥ x = ∑ i, ∑ j, x i * (a i j * x j) := by
      simp only [dotProduct, mulVec, Finset.mul_sum]
    rw [expanded, Finset.sum_mul, ← Finset.sum_neg_distrib]
    refine Finset.sum_le_sum fun i _ => ?_
    rw [Finset.sum_mul, ← Finset.sum_neg_distrib]
    exact Finset.sum_le_sum fun j _ => product i j
  have outweighs := mul_lt_mul_of_pos_right large square
  rw [add_mulVec, dotProduct_add, smul_mulVec, one_mulVec, dotProduct_smul, smul_eq_mul]
  linarith

theorem congruent (positive : PositiveDefinite a) {m : Matrix (Fin n) (Fin n) α}
    (regular : ∀ x, mᵀ *ᵥ x = 0 → x = 0) : PositiveDefinite (m * a * mᵀ) := by
  intro x nonzero
  have form : x ⬝ᵥ (m * a * mᵀ) *ᵥ x = (mᵀ *ᵥ x) ⬝ᵥ a *ᵥ (mᵀ *ᵥ x) := by
    rw [← mulVec_mulVec, ← mulVec_mulVec, dotProduct_mulVec, ← mulVec_transpose]
  rw [form]
  exact positive _ fun zero => nonzero (regular x zero)

end PositiveDefinite

end Descent
