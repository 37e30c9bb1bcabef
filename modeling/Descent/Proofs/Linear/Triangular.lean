import Mathlib
import Descent.Factor.Elimination
import Descent.Factor.Triangular
import Descent.Proofs.Linear.Basic

namespace Descent

open Matrix

variable {α : Type} [ExactField α] {n : Nat}

theorem sum_eq_add_of_ne {f : Fin n → α} {i : Fin n} {p : Fin n → Prop} [DecidablePred p] (outside : ¬p i)
    (zero : ∀ j ≠ i, ¬p j → f j = 0) : ∑ j, f j = (∑ j, if p j then f j else 0) + f i := by
  rw [← (Finset.sum_ite_eq' Finset.univ i f).trans (if_pos (Finset.mem_univ i)), ← Finset.sum_add_distrib]
  refine Finset.sum_congr rfl fun j _ => ?_
  by_cases here : j = i
  · subst here
    rw [if_neg outside, if_pos rfl, zero_add]
  · by_cases inside : p j
    · rw [if_pos inside, if_neg here, add_zero]
    · rw [if_neg inside, if_neg here, zero j here inside, add_zero]

theorem mulVec_of_substitution {m : Matrix (Fin n) (Fin n) α} {p : Fin n → Fin n → Prop}
    [∀ i, DecidablePred (p i)] (diagonal : ∀ i, ¬p i i) (zero : ∀ i, ∀ j ≠ i, ¬p i j → m i j = 0)
    (pivots : ∀ i, m i i ≠ 0) {x b : Fin n → α}
    (entries : ∀ i, x i = (b i - ∑ j, if p i j then m i j * x j else 0) / m i i) : m *ᵥ x = b := by
  ext i
  have rest : ∀ j ≠ i, ¬p i j → m i j * x j = 0 := by
    intro j other absent
    rw [zero i j other absent, zero_mul]
  rw [mulVec, dotProduct, sum_eq_add_of_ne (diagonal i) rest, entries i, mul_div_cancel₀ _ (pivots i),
    add_sub_cancel]

theorem mulVec_of_behind {l : Matrix (Fin n) (Fin n) α} (lower : ∀ i j, i < j → l i j = 0)
    (pivots : ∀ i, l i i ≠ 0) {y b : Fin n → α}
    (entries : ∀ i, y i = (b i - ∑ j, if j < i then l i j * y j else 0) / l i i) : l *ᵥ y = b :=
  mulVec_of_substitution (p := fun i j => j < i) (fun i => lt_irrefl i)
    (fun i j other behind => lower i j (lt_of_le_of_ne (not_lt.1 behind) other.symm)) pivots entries

theorem mulVec_of_ahead {u : Matrix (Fin n) (Fin n) α} (upper : ∀ i j, j < i → u i j = 0)
    (pivots : ∀ i, u i i ≠ 0) {x y : Fin n → α}
    (entries : ∀ i, x i = (y i - ∑ j, if i < j then u i j * x j else 0) / u i i) : u *ᵥ x = y :=
  mulVec_of_substitution (p := fun i j => i < j) (fun i => lt_irrefl i)
    (fun i j other ahead => upper i j (lt_of_le_of_ne (not_lt.1 ahead) other)) pivots entries

theorem sum_congr_if {p : Fin n → Prop} [DecidablePred p] {c : Fin n → α} {y y' : Vector α n}
    (same : ∀ j, p j → y.get j = y'.get j) :
    (∑ j, if p j then c j * y.get j else 0) = ∑ j, if p j then c j * y'.get j else 0 := by
  refine Finset.sum_congr rfl fun j _ => ?_
  by_cases here : p j
  · rw [if_pos here, if_pos here, same j here]
  · rw [if_neg here, if_neg here]

namespace Dense

variable {l : Dense α n n}

theorem subtractProducts_eq (start : α) (coefficient : Fin n → α) (y : Vector α n) (p : Fin n → Prop)
    [DecidablePred p] : subtractProducts start coefficient y ((List.finRange n).filter (p ·)) =
      start - ∑ j, if p j then coefficient j * y.get j else 0 :=
  foldl_sub_finRange p (fun j => coefficient j * y.get j) start

theorem get_forward (l : Dense α n n) (b : Vector α n) (i : Fin n) : (l.forward b).get i =
    (b.get i - ∑ j, if j < i then l.get i j * (l.forward b).get j else 0) / l.get i i := by
  simp only [forward, subtractProducts_eq]
  exact Vec.get_foldl_put
    (fun i y => (b.get i - ∑ j, if j < i then l.get i j * y.get j else 0) / l.get i i) _
    (fun i y y' same => by rw [sum_congr_if same]) i

theorem get_backward (l : Dense α n n) (z : Vector α n) (i : Fin n) : (l.backward z).get i =
    (z.get i - ∑ j, if i < j then l.get j i * (l.backward z).get j else 0) / l.get i i := by
  simp only [backward, subtractProducts_eq]
  exact Vec.get_foldr_put
    (fun i x => (z.get i - ∑ j, if i < j then l.get j i * x.get j else 0) / l.get i i) _
    (fun i x x' same => by rw [sum_congr_if same]) i

variable (lower : ∀ i j, i < j → l.get i j = 0) (pivots : ∀ i, l.get i i ≠ 0)

include lower pivots

theorem mulVec_forward (b : Vector α n) : l.toMatrix *ᵥ (l.forward b).get = b.get :=
  mulVec_of_behind lower pivots (get_forward l b)

theorem transpose_mulVec_backward (z : Vector α n) : l.toMatrixᵀ *ᵥ (l.backward z).get = z.get :=
  mulVec_of_ahead (fun i j below => lower j i below) pivots (get_backward l z)

theorem mulVec_backward_forward (b : Vector α n) :
    (l.toMatrix * l.toMatrixᵀ) *ᵥ (l.backward (l.forward b)).get = b.get := by
  rw [← mulVec_mulVec, transpose_mulVec_backward lower pivots, mulVec_forward lower pivots]

end Dense

namespace PivotFactor

theorem subtractProduct_eq (a b c : α) : subtractProduct a b c = a - b * c := by
  rw [subtractProduct]
  split
  · rename_i zero
    rw [Bool.or_eq_true, Scalar.same_iff, Scalar.same_iff] at zero
    rw [mul_eq_zero.2 zero, sub_zero]
  · rfl

theorem get_solve (f : PivotFactor α n) (b : Vector α n) : ∃ y : Vector α n,
    (∀ i, y.get i = b.get i - ∑ j, if j < i then f.lower.get i j * y.get j else 0) ∧
    ∀ i, (f.solve b).get i =
      (y.get i - ∑ j, if i < j then f.upper.get i j * (f.solve b).get j else 0) / f.upper.get i i := by
  simp only [solve, subtractProduct_eq, foldl_sub_finRange]
  refine ⟨_, Vec.get_foldl_put
    (fun i y => b.get i - ∑ j, if j < i then f.lower.get i j * y.get j else 0) b ?_, ?_⟩
  · intro i y y' same
    rw [sum_congr_if same]
  · apply Vec.get_foldr_put
    intro i x x' same
    rw [sum_congr_if same]

theorem mulVec_solve {f : PivotFactor α n} (unit : ∀ i, f.lower.get i i = 1)
    (lower : ∀ i j, i < j → f.lower.get i j = 0) (upper : ∀ i j, j < i → f.upper.get i j = 0)
    (pivots : ∀ i, f.upper.get i i ≠ 0) (b : Vector α n) :
    (f.lower.toMatrix * f.upper.toMatrix) *ᵥ (f.solve b).get = b.get := by
  obtain ⟨y, first, second⟩ := get_solve f b
  have below : f.lower.toMatrix *ᵥ y.get = b.get := by
    apply mulVec_of_behind (l := f.lower.toMatrix) lower
    · intro i
      rw [Dense.toMatrix_apply, unit i]
      exact one_ne_zero
    · intro i
      rw [Dense.toMatrix_apply, unit i, div_one]
      exact first i
  have above : f.upper.toMatrix *ᵥ (f.solve b).get = y.get :=
    mulVec_of_ahead (u := f.upper.toMatrix) upper pivots second
  rw [← mulVec_mulVec, above, below]

end PivotFactor

end Descent
