import Mathlib
import Descent.Factor.Cholesky
import Descent.Proofs.Linear.Pivots
import Descent.Proofs.Linear.Triangular

namespace Descent

open Matrix

variable {α : Type} {n : Nat}

/-! ## Square roots of the pivots -/

namespace Dense

variable [ExactReal α] {a l : Dense α n n}

structure FactoredTo (a : Dense α n n) (k : Nat) (l : Dense α n n) : Prop where
  product : l.toMatrix * l.toMatrixᵀ + remainder a.toMatrix k = a.toMatrix
  rest : ∀ i m : Fin n, k ≤ m.val → l.get i m = 0
  lower : ∀ i m : Fin n, i < m → l.get i m = 0
  diagonal : ∀ m : Fin n, m.val < k → l.get m m ≠ 0
  pivots : ∀ m : Fin n, m.val < k → pivot a.toMatrix m ≠ 0

theorem FactoredTo.choleskyRest_eq {k : Fin n} (factored : FactoredTo a k.val l) (i : Fin n) :
    choleskyRest a l i k = remainder a.toMatrix k.val i k := by
  have entry := congrFun (congrFun factored.product i) k
  have row : ∑ m, l.get i m * l.get k m = ∑ m, if m < k then l.get i m * l.get k m else 0 := by
    refine Finset.sum_congr rfl fun m _ => ?_
    split
    · rfl
    · rename_i behind
      rw [factored.rest i m (not_lt.1 behind), zero_mul]
  rw [choleskyRest, foldl_sub_finRange, ← row, sub_eq_iff_eq_add']
  exact entry.symm

def rootColumn (a : Dense α n n) (k : Fin n) (i : Fin n) : α :=
  remainder a.toMatrix k.val i k / Scalar.sqrt (pivot a.toMatrix k)

theorem FactoredTo.choleskyColumn?_eq {k : Fin n} (factored : FactoredTo a k.val l) :
    choleskyColumn? a l k = if 0 < pivot a.toMatrix k then
      some (ofFn fun i m => if m = k then rootColumn a k i else l.get i m) else none := by
  have found : choleskyRest a l k k = pivot a.toMatrix k := factored.choleskyRest_eq k
  rw [choleskyColumn?, found]
  by_cases positive : 0 < pivot a.toMatrix k
  · rw [if_pos positive, if_neg (not_le.2 positive)]
    refine congrArg some (congrArg ofFn ?_)
    ext i m
    split
    · rw [rootColumn]
      rcases lt_trichotomy i k with before | rfl | behind
      · rw [if_neg before.ne, if_neg before.not_gt, remainder_eq_zero factored.pivots (.inl before), zero_div]
      · rw [if_pos rfl, eq_div_iff (Scalar.sqrt_pos positive).ne']
        exact ExactReal.sqrt_mul_self _ positive.le
      · rw [if_neg behind.ne', if_pos behind, factored.choleskyRest_eq]
    · rfl
  · rw [if_neg positive, if_pos (not_lt.1 positive)]

theorem rootColumn_mul (symmetric : a.toMatrix.IsSymm) {k : Fin n} (positive : 0 < pivot a.toMatrix k)
    (i j : Fin n) : rootColumn a k i * rootColumn a k j + remainder a.toMatrix (k.val + 1) i j =
      remainder a.toMatrix k.val i j := by
  have swapped : remainder a.toMatrix k.val j k = remainder a.toMatrix k.val k j :=
    (isSymm_remainder symmetric k.val).apply k j
  rw [rootColumn, rootColumn, div_mul_div_comm, ExactReal.sqrt_mul_self _ positive.le, remainder_succ,
    eliminated, of_apply, swapped]
  exact add_sub_cancel _ _

theorem FactoredTo.next (symmetric : a.toMatrix.IsSymm) {k : Fin n} (factored : FactoredTo a k.val l)
    (positive : 0 < pivot a.toMatrix k) :
    FactoredTo a (k.val + 1) (ofFn fun i m => if m = k then rootColumn a k i else l.get i m) := by
  have later (m : Fin n) (inside : m.val < k.val + 1) (other : m ≠ k) : m.val < k.val := by
    have apart : m.val ≠ k.val := fun same => other (Fin.ext same)
    omega
  constructor
  case product =>
    ext i j
    have entry := congrFun (congrFun factored.product i) j
    simp only [Matrix.add_apply, mul_apply, transpose_apply, toMatrix_apply, get_ofFn] at entry ⊢
    -- the new column adds to the product what the remainder loses
    have added (m : Fin n) : (if m = k then rootColumn a k i else l.get i m) *
        (if m = k then rootColumn a k j else l.get j m) =
        l.get i m * l.get j m + if m = k then rootColumn a k i * rootColumn a k j else 0 := by
      by_cases here : m = k
      · subst here
        simp [factored.rest i m le_rfl]
      · simp [here]
    simp only [added, Finset.sum_add_distrib, Finset.sum_ite_eq', Finset.mem_univ, if_true]
    rw [add_assoc, rootColumn_mul symmetric positive]
    exact entry
  case rest =>
    intro i m behind
    rw [get_ofFn, if_neg (by rintro rfl; omega)]
    exact factored.rest i m (Nat.le_of_succ_le behind)
  case lower =>
    intro i m above
    rw [get_ofFn]
    split
    · rename_i here
      subst here
      rw [rootColumn, remainder_eq_zero factored.pivots (.inl above), zero_div]
    · exact factored.lower i m above
  case diagonal =>
    intro m inside
    rw [get_ofFn]
    split
    · rename_i here
      subst here
      exact div_ne_zero positive.ne' (Scalar.sqrt_pos positive).ne'
    · rename_i other
      exact factored.diagonal m (later m inside other)
  case pivots =>
    intro m inside
    by_cases here : m = k
    · exact here ▸ positive.ne'
    · exact factored.pivots m (later m inside here)

theorem cholesky?_spec (symmetric : a.toMatrix.IsSymm) :
    (PositiveDefinite a.toMatrix → ∃ l, a.cholesky? = some l ∧ l.toMatrix * l.toMatrixᵀ = a.toMatrix ∧
      (∀ i j, i < j → l.get i j = 0) ∧ ∀ i, l.get i i ≠ 0) ∧
    (¬PositiveDefinite a.toMatrix → a.cholesky? = none) := by
  have first : FactoredTo a 0 zero := by
    have early (m : Fin n) : ¬m.val < 0 := Nat.not_lt_zero _
    refine ⟨?_, fun i m _ => get_zero i m, fun i m _ => get_zero i m, fun m inside => absurd inside (early m),
      fun m inside => absurd inside (early m)⟩
    have none : (zero : Dense α n n).toMatrix = 0 := by
      ext i j
      exact get_zero i j
    rw [none, Matrix.zero_mul, zero_add, remainder]
  have next (k : Fin n) (l : Dense α n n) (factored : FactoredTo a k.val l) :
      (0 < pivot a.toMatrix k → ∃ l', choleskyColumn? a l k = some l' ∧ FactoredTo a (k.val + 1) l') ∧
        (¬0 < pivot a.toMatrix k → choleskyColumn? a l k = none) := by
    rw [factored.choleskyColumn?_eq]
    exact ⟨fun positive => ⟨_, if_pos positive, factored.next symmetric positive⟩, fun low => if_neg low⟩
  obtain ⟨passed, failed⟩ := foldlM_finRange (FactoredTo a) (0 < pivot a.toMatrix ·) first next
  rw [positiveDefinite_iff_pivots symmetric]
  refine ⟨fun positive => ?_, failed⟩
  obtain ⟨l, folded, factored⟩ := passed positive
  refine ⟨l, folded, ?_, factored.lower, fun i => factored.diagonal i i.isLt⟩
  rw [← factored.product, remainder_eq_zero_matrix fun m => (positive m).ne', add_zero]

end Dense

/-! ## Elimination -/

namespace PivotFactor

variable [ExactField α] {a : Dense α n n} {f : PivotFactor α n}

structure EliminatedTo (a : Dense α n n) (k : Nat) (f : PivotFactor α n) : Prop where
  product : f.lower.toMatrix * f.upper.toMatrix = a.toMatrix
  unit : ∀ i, f.lower.get i i = 1
  lower : ∀ i j : Fin n, i < j → f.lower.get i j = 0
  rest : ∀ i j : Fin n, k ≤ j.val → i ≠ j → f.lower.get i j = 0
  upper : ∀ i j : Fin n, j.val < k → j < i → f.upper.get i j = 0
  remaining : ∀ i j : Fin n, k ≤ i.val → k ≤ j.val → f.upper.get i j = remainder a.toMatrix k i j
  pivots : ∀ m : Fin n, m.val < k → f.upper.get m m ≠ 0

def multiplier (f : PivotFactor α n) (k i : Fin n) : α :=
  if k < i then f.upper.get i k / f.upper.get k k else 0

def eliminated (f : PivotFactor α n) (k : Fin n) : PivotFactor α n where
  lower := .ofFn fun i j => f.lower.get i j + if j = k then multiplier f k i else 0
  upper := .ofFn fun i j => f.upper.get i j - multiplier f k i * f.upper.get k j

theorem multiplier_eq_zero {k i : Fin n} (before : i ≤ k) : multiplier f k i = 0 :=
  if_neg before.not_gt

theorem get_lower_eliminated {k i j : Fin n} (kept : j = k → i ≤ k) :
    (f.eliminated k).lower.get i j = f.lower.get i j := by
  rw [eliminated, Dense.get_ofFn]
  split
  · rename_i here
    rw [multiplier_eq_zero (kept here), add_zero]
  · exact add_zero _

theorem get_upper_eliminated {k i : Fin n} (before : i ≤ k) (j : Fin n) :
    (f.eliminated k).upper.get i j = f.upper.get i j := by
  rw [eliminated, Dense.get_ofFn, multiplier_eq_zero before, zero_mul, sub_zero]

theorem EliminatedTo.eliminate?_eq {k : Fin n} (done : EliminatedTo a k.val f) :
    f.eliminate? k = if 0 < pivot a.toMatrix k then some (f.eliminated k) else none := by
  have found : f.upper.get k k = pivot a.toMatrix k := done.remaining k k le_rfl le_rfl
  rw [← found, eliminate?]
  by_cases positive : 0 < f.upper.get k k
  · rw [if_pos positive, if_pos positive]
    have quotient (i : Fin n) : (if Scalar.same (f.upper.get i k) 0 then 0
        else f.upper.get i k / f.upper.get k k) = f.upper.get i k / f.upper.get k k := by
      split
      · rename_i zero
        rw [Scalar.same_iff.1 zero, zero_div]
      · rfl
    have lower (i j : Fin n) : (if j = k ∧ k < i then f.upper.get i k / f.upper.get k k
        else f.lower.get i j) = f.lower.get i j + if j = k then multiplier f k i else 0 := by
      by_cases here : j = k
      · subst here
        by_cases behind : j < i
        · simp [behind, multiplier, done.rest i j le_rfl behind.ne']
        · simp [behind, multiplier]
      · simp [here]
    have upper (i j : Fin n) : (if i ≤ k then f.upper.get i j else if j = k then 0
        else f.upper.get i j - f.upper.get i k / f.upper.get k k * f.upper.get k j) =
        f.upper.get i j - multiplier f k i * f.upper.get k j := by
      by_cases before : i ≤ k
      · simp [before, multiplier, not_lt.2 before]
      · by_cases here : j = k
        · subst here
          simp [before, multiplier, not_le.1 before, div_mul_cancel₀ _ positive.ne']
        · simp [before, here, multiplier, not_le.1 before]
    simp only [quotient, subtractProduct_eq, lower, upper]
    rfl
  · rw [if_neg positive, if_neg positive]

theorem EliminatedTo.product_eliminated {k : Fin n} (done : EliminatedTo a k.val f) :
    (f.eliminated k).lower.toMatrix * (f.eliminated k).upper.toMatrix = a.toMatrix := by
  have lower : (f.eliminated k).lower.toMatrix =
      f.lower.toMatrix + vecMulVec (multiplier f k) (Pi.single k 1) := by
    ext i j
    simp [eliminated, vecMulVec_apply, Pi.single_apply]
  have upper : (f.eliminated k).upper.toMatrix =
      f.upper.toMatrix - vecMulVec (multiplier f k) (f.upper.toMatrix.row k) := by
    ext i j
    simp [eliminated, vecMulVec_apply]
  -- the multipliers stand below the pivot, where the lower triangle is still the identity
  have below : f.lower.toMatrix *ᵥ multiplier f k = multiplier f k := by
    ext i
    rw [mulVec, dotProduct, Finset.sum_eq_single i]
    · rw [Dense.toMatrix_apply, done.unit i, one_mul]
    · intro j _ other
      by_cases behind : k < j
      · rw [Dense.toMatrix_apply, done.rest i j behind.le other.symm, zero_mul]
      · rw [multiplier, if_neg behind, mul_zero]
    · exact fun absent => absurd (Finset.mem_univ i) absent
  have here : multiplier f k k = 0 := multiplier_eq_zero le_rfl
  have none : vecMulVec (multiplier f k) (Pi.single k 1) *
      vecMulVec (multiplier f k) (f.upper.toMatrix.row k) = 0 := by
    rw [vecMulVec_mul_vecMulVec, single_one_dotProduct, here, zero_smul, vecMulVec_zero]
  rw [lower, upper, Matrix.add_mul, Matrix.mul_sub, Matrix.mul_sub, none, mul_vecMulVec, below,
    vecMulVec_mul, single_one_vecMul, sub_zero, sub_add_cancel]
  exact done.product

theorem EliminatedTo.upper_eliminated {k i j : Fin n} (done : EliminatedTo a k.val f) (behind : k < i)
    (behind' : k < j) : (f.eliminated k).upper.get i j = remainder a.toMatrix (k.val + 1) i j := by
  have found : f.upper.get k k = pivot a.toMatrix k := done.remaining k k le_rfl le_rfl
  have row : f.upper.get k j = remainder a.toMatrix k.val k j := done.remaining k j le_rfl behind'.le
  have column : f.upper.get i k = remainder a.toMatrix k.val i k := done.remaining i k behind.le le_rfl
  have entry : f.upper.get i j = remainder a.toMatrix k.val i j := done.remaining i j behind.le behind'.le
  -- less its multiple of row `k`, a later row is what remains one step later
  rw [eliminated, Dense.get_ofFn, multiplier, if_pos behind, row, column, entry, found, remainder_succ,
    Descent.eliminated, of_apply, div_mul_eq_mul_div]
  rfl

theorem EliminatedTo.next {k : Fin n} (done : EliminatedTo a k.val f) (positive : 0 < pivot a.toMatrix k) :
    EliminatedTo a (k.val + 1) (f.eliminated k) := by
  have nonzero : f.upper.get k k ≠ 0 := done.remaining k k le_rfl le_rfl ▸ positive.ne'
  have later {i : Fin n} (inside : i.val < k.val + 1) (other : i ≠ k) : i < k :=
    (Nat.lt_succ_iff_lt_or_eq.1 inside).resolve_right fun same => other (Fin.ext same)
  constructor
  case product => exact done.product_eliminated
  case unit =>
    intro i
    rw [get_lower_eliminated Eq.le]
    exact done.unit i
  case lower =>
    intro i j above
    rw [get_lower_eliminated fun here => here ▸ above.le]
    exact done.lower i j above
  case rest =>
    intro i j behind other
    rw [get_lower_eliminated (by rintro rfl; omega)]
    exact done.rest i j (Nat.le_of_succ_le behind) other
  case upper =>
    intro i j inside below
    rw [eliminated, Dense.get_ofFn]
    by_cases here : j = k
    · subst here
      rw [multiplier, if_pos below, div_mul_cancel₀ _ nonzero, sub_self]
    · have before := later inside here
      rw [done.upper i j before below, done.upper k j before before, mul_zero, sub_zero]
  case remaining => exact fun i j behind behind' => done.upper_eliminated behind behind'
  case pivots =>
    intro m inside
    rw [get_upper_eliminated (Nat.lt_succ_iff.1 inside)]
    by_cases same : m = k
    · exact same ▸ nonzero
    · exact done.pivots m (later inside same)

theorem ofPositive?_spec (symmetric : a.toMatrix.IsSymm) :
    (PositiveDefinite a.toMatrix → ∃ f, ofPositive? a = some f ∧
      f.lower.toMatrix * f.upper.toMatrix = a.toMatrix ∧ (∀ i, f.lower.get i i = 1) ∧
      (∀ i j, i < j → f.lower.get i j = 0) ∧ (∀ i j, j < i → f.upper.get i j = 0) ∧
      ∀ i, f.upper.get i i ≠ 0) ∧
    (¬PositiveDefinite a.toMatrix → ofPositive? a = none) := by
  have first : EliminatedTo a 0 ⟨Dense.identity, a⟩ := by
    constructor
    case product => rw [Dense.toMatrix_identity, Matrix.one_mul]
    case unit => exact fun i => (Dense.get_identity i i).trans (if_pos rfl)
    case lower => exact fun i j above => (Dense.get_identity i j).trans (if_neg above.ne)
    case rest => exact fun i j _ other => (Dense.get_identity i j).trans (if_neg other)
    case upper => exact fun i j inside => absurd inside (Nat.not_lt_zero _)
    case remaining => exact fun i j _ _ => rfl
    case pivots => exact fun m inside => absurd inside (Nat.not_lt_zero _)
  have next (k : Fin n) (f : PivotFactor α n) (done : EliminatedTo a k.val f) :
      (0 < pivot a.toMatrix k → ∃ f', f.eliminate? k = some f' ∧ EliminatedTo a (k.val + 1) f') ∧
        (¬0 < pivot a.toMatrix k → f.eliminate? k = none) := by
    rw [done.eliminate?_eq]
    exact ⟨fun positive => ⟨_, if_pos positive, done.next positive⟩, fun low => if_neg low⟩
  obtain ⟨passed, failed⟩ := foldlM_finRange (EliminatedTo a) (0 < pivot a.toMatrix ·) first next
  rw [positiveDefinite_iff_pivots symmetric]
  refine ⟨fun positive => ?_, failed⟩
  obtain ⟨f, folded, done⟩ := passed positive
  exact ⟨f, folded, done.product, done.unit, done.lower, fun i j => done.upper i j j.isLt,
    fun i => done.pivots i i.isLt⟩

end PivotFactor

end Descent
