import Mathlib
import Descent.Proofs.Linear.Definite

namespace Descent

open Matrix

variable {α : Type} [ExactField α] {n : Nat}

def eliminated (s : Matrix (Fin n) (Fin n) α) (k : Fin n) : Matrix (Fin n) (Fin n) α :=
  .of fun i j => s i j - s i k * s k j / s k k

def remainder (a : Matrix (Fin n) (Fin n) α) : Nat → Matrix (Fin n) (Fin n) α
  | 0 => a
  | k + 1 => if inside : k < n then eliminated (remainder a k) ⟨k, inside⟩ else remainder a k

def pivot (a : Matrix (Fin n) (Fin n) α) (k : Fin n) : α := remainder a k.val k k

def PositiveFrom (k : Nat) (s : Matrix (Fin n) (Fin n) α) : Prop :=
  ∀ x : Fin n → α, (∀ i : Fin n, i.val < k → x i = 0) → x ≠ 0 → 0 < x ⬝ᵥ s *ᵥ x

variable {a s : Matrix (Fin n) (Fin n) α}

theorem remainder_succ (a : Matrix (Fin n) (Fin n) α) (k : Fin n) :
    remainder a (k.val + 1) = eliminated (remainder a k.val) k := by
  rw [remainder, dif_pos k.isLt]

theorem isSymm_eliminated (symmetric : s.IsSymm) (k : Fin n) : (eliminated s k).IsSymm := by
  ext i j
  simp only [transpose_apply, eliminated, of_apply, symmetric.apply]
  ring

theorem isSymm_remainder (symmetric : a.IsSymm) (k : Nat) : (remainder a k).IsSymm := by
  induction k with
  | zero => exact symmetric
  | succ k ih =>
      rw [remainder]
      split
      · exact isSymm_eliminated ih _
      · exact ih

theorem remainder_eq_zero {k : Nat} (pivots : ∀ m : Fin n, m.val < k → pivot a m ≠ 0) {i j : Fin n}
    (before : i.val < k ∨ j.val < k) : remainder a k i j = 0 := by
  induction k generalizing i j with
  | zero => omega
  | succ k ih =>
      have zeros {i j : Fin n} (before : i.val < k ∨ j.val < k) : remainder a k i j = 0 :=
        ih (fun m below => pivots m (Nat.lt_succ_of_lt below)) before
      rw [remainder]
      split
      · rename_i inside
        have nonzero : remainder a k ⟨k, inside⟩ ⟨k, inside⟩ ≠ 0 := pivots ⟨k, inside⟩ (Nat.lt_succ_self k)
        rw [eliminated, of_apply]
        by_cases row : i.val < k
        · rw [zeros (.inl row), zeros (.inl row), zero_mul, zero_div, sub_zero]
        · by_cases column : j.val < k
          · rw [zeros (.inr column), zeros (.inr column), mul_zero, zero_div, sub_zero]
          · rcases before with here | here
            · obtain rfl : i = ⟨k, inside⟩ := Fin.ext (Nat.eq_of_lt_succ_of_not_lt here row)
              rw [mul_div_cancel_left₀ _ nonzero, sub_self]
            · obtain rfl : j = ⟨k, inside⟩ := Fin.ext (Nat.eq_of_lt_succ_of_not_lt here column)
              rw [mul_div_cancel_right₀ _ nonzero, sub_self]
      · exact zeros (by omega)

theorem remainder_eq_zero_matrix (pivots : ∀ m, pivot a m ≠ 0) : remainder a n = 0 := by
  ext i j
  exact remainder_eq_zero (fun m _ => pivots m) (.inl i.isLt)

theorem eliminated_eq (symmetric : s.IsSymm) (k : Fin n) :
    eliminated s k = s - (s k k)⁻¹ • vecMulVec (s k) (s k) := by
  ext i j
  simp only [eliminated, of_apply, Matrix.sub_apply, Matrix.smul_apply, vecMulVec_apply, smul_eq_mul,
    symmetric.apply]
  ring

theorem form_eliminated (symmetric : s.IsSymm) (k : Fin n) (x : Fin n → α) :
    x ⬝ᵥ s *ᵥ x = x ⬝ᵥ eliminated s k *ᵥ x + (s k k)⁻¹ * (s k ⬝ᵥ x) ^ 2 := by
  rw [eliminated_eq symmetric, sub_mulVec, smul_mulVec, vecMulVec_mulVec, op_smul_eq_smul, dotProduct_sub,
    dotProduct_smul, dotProduct_smul, dotProduct_comm x (s k), smul_eq_mul, smul_eq_mul]
  ring

theorem eliminated_mulVec_single {k : Fin n} (nonzero : s k k ≠ 0) (c : α) :
    eliminated s k *ᵥ Pi.single k c = 0 := by
  ext i
  simp only [mulVec_single, eliminated, of_apply, Pi.smul_apply, col_apply, Pi.zero_apply]
  rw [mul_div_cancel_right₀ _ nonzero, sub_self, smul_zero]

theorem form_add_single (symmetric : s.IsSymm) {k : Fin n} (nonzero : s k k ≠ 0) (x : Fin n → α) (c : α) :
    (x + Pi.single k c) ⬝ᵥ eliminated s k *ᵥ (x + Pi.single k c) = x ⬝ᵥ eliminated s k *ᵥ x := by
  have same := isSymm_eliminated symmetric k
  rw [mulVec_add, eliminated_mulVec_single nonzero, add_zero, add_dotProduct, dotProduct_comm (Pi.single k c),
    ← same.eq, mulVec_transpose, ← dotProduct_mulVec, eliminated_mulVec_single nonzero, dotProduct_zero,
    add_zero]

theorem PositiveFrom.pivot {k : Fin n} (positive : PositiveFrom k.val s) : 0 < s k k := by
  have alone := positive (Pi.single k 1) (fun i before => ?_) (single_ne_zero k)
  · simpa using alone
  · exact Pi.single_eq_of_ne (fun here => before.ne (congrArg Fin.val here)) 1

theorem PositiveFrom.eliminated (symmetric : s.IsSymm) {k : Fin n} (positive : PositiveFrom k.val s) :
    PositiveFrom (k.val + 1) (eliminated s k) := by
  intro x zeros nonzero
  have pivot := positive.pivot
  -- the entry at `k` is chosen so that the square that is split off vanishes
  have form := form_eliminated symmetric k (x + Pi.single k (-((s k k)⁻¹ * (s k ⬝ᵥ x))))
  have cancels : s k ⬝ᵥ (x + Pi.single k (-((s k k)⁻¹ * (s k ⬝ᵥ x)))) = 0 := by
    rw [dotProduct_add, dotProduct_single, mul_neg, mul_inv_cancel_left₀ pivot.ne', add_neg_cancel]
  rw [cancels, form_add_single symmetric pivot.ne', zero_pow two_ne_zero, mul_zero, add_zero] at form
  rw [← form]
  apply positive
  · intro i before
    rw [Pi.add_apply, zeros i (Nat.lt_succ_of_lt before), zero_add]
    exact Pi.single_eq_of_ne (fun here => before.ne (congrArg Fin.val here)) _
  · intro zero
    apply nonzero
    ext i
    by_cases before : i.val < k.val + 1
    · exact zeros i before
    · have entry := congrFun zero i
      rwa [Pi.add_apply, Pi.single_eq_of_ne (by rintro rfl; omega), add_zero] at entry

theorem PositiveFrom.of_eliminated (symmetric : s.IsSymm) {k : Fin n} (pivot : 0 < s k k)
    (positive : PositiveFrom (k.val + 1) (Descent.eliminated s k)) : PositiveFrom k.val s := by
  intro x zeros nonzero
  have split : x = Function.update x k 0 + Pi.single k (x k) := by
    ext i
    by_cases here : i = k
    · subst here
      simp
    · simp [here]
  have rest : x ⬝ᵥ Descent.eliminated s k *ᵥ x =
      Function.update x k 0 ⬝ᵥ Descent.eliminated s k *ᵥ Function.update x k 0 := by
    conv_lhs => rw [split]
    exact form_add_single symmetric pivot.ne' _ _
  rw [form_eliminated symmetric k x, rest]
  by_cases alone : Function.update x k 0 = 0
  · rw [alone, zero_add] at split
    have entry : x k ≠ 0 := by
      intro zero
      rw [zero, Pi.single_zero] at split
      exact nonzero split
    have product : s k k * x k ≠ 0 := mul_ne_zero pivot.ne' entry
    rw [alone, zero_dotProduct, zero_add, split, dotProduct_single]
    positivity
  · have square : 0 ≤ (s k k)⁻¹ * (s k ⬝ᵥ x) ^ 2 := mul_nonneg (inv_nonneg.2 pivot.le) (sq_nonneg _)
    refine add_pos_of_pos_of_nonneg (positive _ (fun i before => ?_) alone) square
    by_cases here : i = k
    · rw [here, Function.update_self]
    · rw [Function.update_of_ne here]
      have apart : i.val ≠ k.val := fun same => here (Fin.ext same)
      exact zeros i (by omega)

theorem positiveFrom_remainder (symmetric : a.IsSymm) (k : Fin n) :
    PositiveFrom k.val (remainder a k.val) ↔
      0 < pivot a k ∧ PositiveFrom (k.val + 1) (remainder a (k.val + 1)) := by
  have symmetric' := isSymm_remainder symmetric k.val
  rw [remainder_succ]
  exact ⟨fun positive => ⟨positive.pivot, positive.eliminated symmetric'⟩,
    fun both => .of_eliminated symmetric' both.1 both.2⟩

theorem positiveFrom_iff_pivots (symmetric : a.IsSymm) {left k : Nat} (whole : k + left = n) :
    PositiveFrom k (remainder a k) ↔ ∀ i : Fin n, k ≤ i.val → 0 < pivot a i := by
  induction left generalizing k with
  | zero =>
      refine iff_of_true (fun x zeros nonzero => ?_) fun i inside => ?_
      · exact absurd (funext fun i => zeros i (by omega)) nonzero
      · omega
  | succ left ih =>
      have inside : k < n := by omega
      have step : PositiveFrom k (remainder a k) ↔ _ := positiveFrom_remainder symmetric ⟨k, inside⟩
      have rest : PositiveFrom (k + 1) (remainder a (k + 1)) ↔ _ := ih (by omega)
      rw [step, rest]
      constructor
      · rintro ⟨first, others⟩ i behind
        rcases behind.eq_or_lt with here | later
        · obtain rfl : ⟨k, inside⟩ = i := Fin.ext here
          exact first
        · exact others i later
      · intro all
        exact ⟨all ⟨k, inside⟩ le_rfl, fun i behind => all i (Nat.le_of_succ_le behind)⟩

theorem positiveDefinite_iff_pivots (symmetric : a.IsSymm) :
    PositiveDefinite a ↔ ∀ k, 0 < pivot a k := by
  have whole := positiveFrom_iff_pivots symmetric (Nat.zero_add n)
  simp only [Nat.zero_le, true_implies] at whole
  rw [← whole]
  exact ⟨fun positive x _ nonzero => positive x nonzero,
    fun positive x nonzero => positive x (fun i before => absurd before (Nat.not_lt_zero _)) nonzero⟩

end Descent
