import Mathlib
import Descent.Proofs.Linear.Definite
import Descent.Proofs.Linear.PivotBlocks
import Descent.Proofs.Linear.Triangular

namespace Descent.Regularizer

open Matrix

variable {α : Type} {n : Nat}

section

variable [ExactField α] {least : α} {q d lu a : Matrix (Fin n) (Fin n) α} {w : Fin n → α}

theorem raise_eq (least w : α) : raise least w = max w least :=
  Scalar.larger_eq w least

theorem positiveDefinite_diagonal (positive : ∀ i, 0 < w i) : PositiveDefinite (diagonal w) := by
  intro x nonzero
  obtain ⟨i, entry⟩ := Function.ne_iff.1 nonzero
  have term (j : Fin n) : 0 ≤ x j * (diagonal w *ᵥ x) j := by
    rw [mulVec_diagonal, mul_left_comm]
    exact mul_nonneg (positive j).le (mul_self_nonneg _)
  refine Finset.sum_pos' (fun j _ => term j) ⟨i, Finset.mem_univ i, ?_⟩
  rw [mulVec_diagonal, mul_left_comm]
  exact mul_pos (positive i) (mul_self_pos.2 entry)

def raisedMatrix (least : α) (q : Matrix (Fin n) (Fin n) α) (w : Fin n → α) : Matrix (Fin n) (Fin n) α :=
  q * diagonal (fun i => max (w i) least) * qᵀ

theorem positiveDefinite_raisedMatrix (positive : 0 < least) (orthogonal : q * qᵀ = 1) (w : Fin n → α) :
    PositiveDefinite (raisedMatrix least q w) := by
  apply PositiveDefinite.congruent
  · exact positiveDefinite_diagonal fun i => lt_max_of_lt_right positive
  · intro x zero
    rw [← one_mulVec x, ← orthogonal, ← mulVec_mulVec, zero, mulVec_zero]

end

/-! ## The outer factors -/

section

variable [ExactField α] {f : BlockFactor α n} {lu a : Matrix (Fin n) (Fin n) α}

theorem mulVec_order (factors : f.Factors lu a) (x : Fin n → α) (i : Fin n) :
    (lu *ᵥ x) (f.order.get i) = (f.lower.toMatrix *ᵥ x) i := by
  rw [mulVec, mulVec, show lu (f.order.get i) = f.lower.toMatrix i from funext (factors.rows i)]

theorem transpose_mulVec (factors : f.Factors lu a) (x : Fin n → α) :
    luᵀ *ᵥ x = f.lower.toMatrixᵀ *ᵥ fun i => x (f.order.get i) := by
  obtain ⟨e, order⟩ := Vec.exists_perm factors.order
  ext j
  rw [mulVec, dotProduct, ← Equiv.sum_comp e, order]
  exact Finset.sum_congr rfl fun i _ => congrArg (· * x (f.order.get i)) (factors.rows i j)

theorem eq_zero_of_transpose_mulVec (factors : f.Factors lu a) {x : Fin n → α} (zero : luᵀ *ᵥ x = 0) : x = 0 := by
  obtain ⟨e, order⟩ := Vec.exists_perm factors.order
  have regular : f.lower.toMatrixᵀ.det ≠ 0 := by
    have diagonal : f.lower.toMatrix.det = ∏ i, f.lower.toMatrix i i :=
      det_of_isLowerTriangular _ fun i j above => factors.lower i j above
    have one : ∏ i, f.lower.toMatrix i i = 1 := Finset.prod_eq_one fun i _ => factors.unit i
    rw [det_transpose, diagonal, one]
    exact one_ne_zero
  rw [transpose_mulVec factors] at zero
  have entries := eq_zero_of_mulVec_eq_zero regular zero
  ext i
  have entry := congrFun entries (e.symm i)
  rwa [← order, e.apply_symm_apply] at entry

theorem solves_of_middle (factors : f.Factors lu a) {m : Matrix (Fin n) (Fin n) α} {g z : Vector α n}
    (middle : m *ᵥ z.get = (f.lower.forward (Vec.gather f.order (-g))).get) :
    (lu * m * luᵀ) *ᵥ (Vec.scatter f.order (f.lower.backward z)).get = -g.get := by
  have pivots (i : Fin n) : f.lower.get i i ≠ 0 := by
    rw [factors.unit i]
    exact one_ne_zero
  obtain ⟨e, order⟩ := Vec.exists_perm factors.order
  have inner : luᵀ *ᵥ (Vec.scatter f.order (f.lower.backward z)).get = z.get := by
    rw [transpose_mulVec factors, funext fun i => Vec.get_scatter factors.order (f.lower.backward z) i]
    exact Dense.transpose_mulVec_backward factors.lower pivots z
  ext i
  obtain ⟨j, rfl⟩ := e.surjective i
  rw [← mulVec_mulVec, ← mulVec_mulVec, inner, middle, order, mulVec_order factors,
    Dense.mulVec_forward factors.lower pivots, Vec.get_gather, Vec.get_neg]

end

/-! ## The step -/

section

variable [ExactField α] {decompose : (a b c : α) → Rotation α} {f : BlockFactor α n}
  {lu a : Matrix (Fin n) (Fin n) α} {least : α} {g : Vector α n}

theorem mulVec_solution {d : Dense α n n} (blocks : BlockDiagonal d)
    (exact : ∀ a b c : α, b ≠ 0 → (decompose a b c).Diagonalizes a b c) (positive : 0 < least) (y : Vector α n) :
    raisedMatrix least (blocks.rotations exact).toMatrix (fun i => (axis decompose d i).value) *ᵥ
      blocks.solution exact least y = y.get := by
  obtain ⟨q, rotations⟩ : ∃ q, q = blocks.rotations exact := ⟨_, rfl⟩
  rw [BlockDiagonal.solution, raisedMatrix, ← rotations]
  have inner : q.toMatrixᵀ * q.toMatrix = 1 := mul_eq_one_comm.1 q.orthogonal
  have scaled : (diagonal fun i => max (axis decompose d i).value least) *ᵥ (fun i => (q.toMatrixᵀ *ᵥ y.get) i /
      raise least (axis decompose d i).value) = q.toMatrixᵀ *ᵥ y.get := by
    ext i
    rw [mulVec_diagonal, raise_eq, mul_div_cancel₀ _ (lt_max_of_lt_right positive).ne']
  rw [mulVec_mulVec, Matrix.mul_assoc, inner, Matrix.mul_one, ← mulVec_mulVec, scaled, mulVec_mulVec, q.orthogonal,
    one_mulVec]

theorem raisedStep_eq (decompose : (a b c : α) → Rotation α) (least : α) (f : BlockFactor α n) (g : Vector α n) :
    raisedStep decompose least f g = .ok
      { direction := Vec.scatter f.order (f.lower.backward (solveBlocks decompose least f.middle
          (Block.scan f.middle) (f.lower.forward (Vec.gather f.order (-g)))))
        method := .blocks
        shift := largestLift least ((Block.scan f.middle).flatMap (lowEigenvalues decompose least f.middle))
        modified := ((Block.scan f.middle).flatMap (lowEigenvalues decompose least f.middle)).length
        attempts := 1 } := by
  have finite (x : Vector α n) : x.all Scalar.isFinite = true := by simp [Scalar.isFinite_eq_true]
  simp only [raisedStep, Dense.isFinite_eq_true, finite]
  rfl

theorem largestLift_isGreatest {low : List α} (below : ∀ w ∈ low, w < least) (some : low ≠ []) :
    IsGreatest {x | ∃ w ∈ low, least - w = x} (largestLift least low) := by
  simp only [largestLift, Scalar.larger_eq]
  obtain ⟨member, bound⟩ := foldl_max_isGreatest (fun w => least - w) low 0
  refine ⟨?_, fun x lift => bound (.inr lift)⟩
  rcases member with zero | lift
  · obtain ⟨w, inside⟩ := List.exists_mem_of_ne_nil low some
    have positive := sub_pos.2 (below w inside)
    exact absurd (zero ▸ bound (.inr ⟨w, inside, rfl⟩)) positive.not_ge
  · exact lift

theorem mem_low {w : Fin n → α} {v : α} :
    v ∈ ((List.finRange n).map w).filter (· < least) ↔ ∃ i, w i < least ∧ w i = v := by
  constructor
  · intro inside
    obtain ⟨⟨i, _, rfl⟩, below⟩ := (List.mem_filter.1 inside).imp_left List.mem_map.1
    exact ⟨i, of_decide_eq_true below, rfl⟩
  · rintro ⟨i, below, rfl⟩
    exact List.mem_filter.2 ⟨List.mem_map_of_mem (List.mem_finRange i), decide_eq_true below⟩

theorem largestLift_low {w : Fin n → α} (some : ∃ i, w i < least) :
    IsGreatest {x | ∃ i, w i < least ∧ least - w i = x}
      (largestLift least (((List.finRange n).map w).filter (· < least))) := by
  have lifts : {x | ∃ v ∈ ((List.finRange n).map w).filter (· < least), least - v = x} =
      {x | ∃ i, w i < least ∧ least - w i = x} := by
    ext x
    constructor
    · rintro ⟨v, inside, lift⟩
      obtain ⟨j, here, rfl⟩ := mem_low.1 inside
      exact ⟨j, here, lift⟩
    · rintro ⟨j, here, lift⟩
      exact ⟨w j, mem_low.2 ⟨j, here, rfl⟩, lift⟩
  obtain ⟨i, below⟩ := some
  rw [← lifts]
  apply largestLift_isGreatest
  · exact fun v inside => of_decide_eq_true (List.mem_filter.1 inside).2
  · exact List.ne_nil_of_mem (mem_low.2 ⟨i, below, rfl⟩)

/-- The step with the eigenvalues `w` of the blocks raised to the bound, which adds `e` to the matrix `a`. -/
structure RaisesTo (least : α) (f : BlockFactor α n) (lu a : Matrix (Fin n) (Fin n) α) (g : Vector α n)
    (s : NewtonStep α n) (q : Matrix (Fin n) (Fin n) α) (w : Fin n → α) (e : Matrix (Fin n) (Fin n) α) : Prop where
  orthogonal : q * qᵀ = 1
  blockwise : ∀ i k, q i k ≠ 0 → i = k ∨ f.middle.get i k ≠ 0
  eigenvalues : f.middle.toMatrix = q * diagonal w * qᵀ
  raised : a + e = lu * raisedMatrix least q w * luᵀ
  solves : (a + e) *ᵥ s.direction.get = -g.get
  positive : PositiveDefinite (a + e)
  descends : g.get ≠ 0 → g.get ⬝ᵥ s.direction.get < 0
  modified : s.modified = (Finset.univ.filter fun i => w i < least).card
  lifted : (∃ i, w i < least) → IsGreatest {x | ∃ i, w i < least ∧ least - w i = x} s.shift
  untouched : (∀ i, least ≤ w i) → s.shift = 0 ∧ e = 0

theorem raisedStep_raisesTo (factors : f.Factors lu a)
    (exact : ∀ a b c : α, b ≠ 0 → (decompose a b c).Diagonalizes a b c) (positive : 0 < least) (g : Vector α n) :
    ∃ s q w e, raisedStep decompose least f g = .ok s ∧ RaisesTo least f lu a g s q w e := by
  obtain ⟨q, rotations⟩ : ∃ q, q = (factors.middle.rotations exact).toMatrix := ⟨_, rfl⟩
  obtain ⟨w, values⟩ : ∃ w, w = fun i => (axis decompose f.middle i).value := ⟨_, rfl⟩
  have orthogonal : q * qᵀ = 1 := rotations ▸ PlaneRotations.orthogonal _
  have eigenvalues : f.middle.toMatrix = q * diagonal w * qᵀ := by
    rw [rotations, values]
    exact factors.middle.eq_diagonal exact
  have low : (Block.scan f.middle).flatMap (lowEigenvalues decompose least f.middle) =
      ((List.finRange n).map w).filter (· < least) := by
    rw [values]
    exact factors.middle.flatMap_lowEigenvalues least
  have raised : a + (lu * raisedMatrix least q w * luᵀ - a) = lu * raisedMatrix least q w * luᵀ :=
    add_sub_cancel _ _
  have solves : (lu * raisedMatrix least q w * luᵀ) *ᵥ (Vec.scatter f.order (f.lower.backward
      (solveBlocks decompose least f.middle (Block.scan f.middle)
        (f.lower.forward (Vec.gather f.order (-g)))))).get = -g.get := by
    apply solves_of_middle factors
    rw [factors.middle.get_solveBlocks exact, rotations, values, mulVec_solution factors.middle exact positive]
  have definite : PositiveDefinite (lu * raisedMatrix least q w * luᵀ) :=
    (positiveDefinite_raisedMatrix positive orthogonal w).congruent fun x => eq_zero_of_transpose_mulVec factors
  refine ⟨_, q, w, lu * raisedMatrix least q w * luᵀ - a, raisedStep_eq decompose least f g, ?_⟩
  constructor
  case orthogonal => exact orthogonal
  case blockwise =>
    intro i k nonzero
    rw [rotations] at nonzero
    exact factors.middle.rotations_apply_ne_zero exact nonzero
  case eigenvalues => exact eigenvalues
  case raised => exact raised
  case solves =>
    rw [raised]
    exact solves
  case positive =>
    rw [raised]
    exact definite
  case descends => exact definite.descends solves
  case modified =>
    rw [low, List.filter_map, List.length_map]
    rfl
  case lifted =>
    rw [low]
    exact largestLift_low
  case untouched =>
    intro all
    have none : ((List.finRange n).map w).filter (· < least) = [] := by
      refine List.eq_nil_iff_forall_not_mem.2 fun v inside => ?_
      obtain ⟨j, below, rfl⟩ := mem_low.1 inside
      exact below.not_ge (all j)
    have same : (fun i => max (w i) least) = w := funext fun i => max_eq_left (all i)
    constructor
    · rw [low, none]
      rfl
    · rw [raisedMatrix, same, ← eigenvalues, factors.product, sub_self]

end

theorem leastEigenvalue_pos [ExactField α] (h : Dense α n n) : 0 < leastEigenvalue h := by
  rw [leastEigenvalue, Scalar.larger_eq]
  exact mul_pos (Scalar.ratio_pos one_pos (by norm_num)) (lt_max_of_lt_left one_pos)

/-- The step through any exact factorization into blocks, and through the one that the library computes, solves a
positive definite system that differs from the given one in the raised eigenvalues only. -/
theorem raised_blocks_step [ExactReal α] (h : Dense α n n) (g : Vector α n) :
    (∀ (decompose : (a b c : α) → Rotation α) (least : α) (f : BlockFactor α n) (lu : Matrix (Fin n) (Fin n) α),
      (∀ a b c, b ≠ 0 → (decompose a b c).Diagonalizes a b c) → 0 < least →
      f.Factors lu h.symmetrized.toMatrix → ∃ s q w e, raisedStep decompose least f g = .ok s ∧
        RaisesTo least f lu h.symmetrized.toMatrix g s q w e) ∧
    ∃ f lu s q w e, step .blocks (.dense h) g = .ok s ∧ f.Factors lu h.symmetrized.toMatrix ∧
      0 < leastEigenvalue h.symmetrized ∧
      RaisesTo (leastEigenvalue h.symmetrized) f lu h.symmetrized.toMatrix g s q w e := by
  have general (decompose : (a b c : α) → Rotation α) (least : α) (f : BlockFactor α n)
      (lu : Matrix (Fin n) (Fin n) α) (exact : ∀ a b c, b ≠ 0 → (decompose a b c).Diagonalizes a b c)
      (positive : 0 < least) (factors : f.Factors lu h.symmetrized.toMatrix) :=
    raisedStep_raisesTo factors exact positive g
  refine ⟨general, ?_⟩
  obtain ⟨lu, factors⟩ := BlockFactor.ofSymmetric_factors (Dense.isSymm_symmetrized h)
  have positive := leastEigenvalue_pos h.symmetrized
  obtain ⟨s, q, w, e, stepped, raises⟩ := general _ _ _ lu
    (fun a b c nonzero => Rotation.ofSymmetric_diagonalizes nonzero) positive factors
  refine ⟨_, lu, s, q, w, e, ?_, factors, positive, raises⟩
  rw [step, raised, Dense.isFinite_eq_true]
  exact stepped

/-- An indefinite matrix with nothing on its diagonal, so that the factorization has to take a pivot of two rows. -/
def crossed : Dense ℝ 2 2 := .ofFn fun i j => if i = j then 0 else 1

theorem get_crossed (i j : Fin 2) : crossed.symmetrized.get i j = if i = j then 0 else 1 := by
  fin_cases i <;> fin_cases j <;> norm_num [Dense.symmetrized, crossed, Scalar.ratio_eq]

theorem choosePivot_crossed : BlockFactor.choosePivot crossed.symmetrized 0 = .double 1 := by
  have positive := BlockFactor.threshold_pos (α := ℝ)
  have behind : BlockFactor.behind (0 : Fin 2) = [1] := rfl
  simp [BlockFactor.choosePivot, behind, BlockFactor.largestAt?, get_crossed, Scalar.same_iff, Scalar.larger_eq,
    ExactField.abs_eq, ExactField.isNaN_eq, positive.not_ge]

open BlockFactor in
theorem factors_crossed : (ofSymmetric crossed.symmetrized).Factors 1 crossed.symmetrized.toMatrix := by
  obtain ⟨lu, factors⟩ := ofSymmetric_factors (Dense.isSymm_symmetrized crossed)
  -- the pivot of two rows takes the whole matrix in one step
  have eliminated : eliminateFrom ⟨crossed.symmetrized, Vector.ofFn id, Dense.zero, Dense.zero⟩ 0 =
      (Progress.exchange ⟨crossed.symmetrized, Vector.ofFn id, Dense.zero, Dense.zero⟩ 1 1).eliminateDouble 0 1 := by
    rw [eliminateFrom, dif_pos Nat.two_pos]
    simp only [Fin.zero_eta, choosePivot_crossed]
    rw [dif_pos (by decide), eliminateFrom, dif_neg (by decide)]
    rfl
  have order (i : Fin 2) : (ofSymmetric crossed.symmetrized).order.get i = i := by
    rw [ofSymmetric, eliminated]
    fin_cases i <;> simp [Progress.eliminateDouble, Progress.exchange, transposition]
  have lower (i j : Fin 2) : (ofSymmetric crossed.symmetrized).lower.get i j = (1 : Matrix (Fin 2) (Fin 2) ℝ) i j := by
    rw [ofSymmetric, eliminated]
    fin_cases i <;> fin_cases j <;> simp [Progress.eliminateDouble, Progress.exchange, transposition, Dense.zero]
  have same : lu = 1 := by
    ext i j
    rw [← lower i j, ← factors.rows i j, order]
  exact same ▸ factors

theorem least_crossed : leastEigenvalue crossed.symmetrized = 1 / 67108864 := by
  have entries : crossed.symmetrized.maxAbs = Scalar.supremum (Scalar.supremum (Scalar.supremum (Scalar.supremum 0
      (Scalar.abs (crossed.symmetrized.get 0 0))) (Scalar.abs (crossed.symmetrized.get 0 1)))
      (Scalar.abs (crossed.symmetrized.get 1 0))) (Scalar.abs (crossed.symmetrized.get 1 1)) := rfl
  rw [leastEigenvalue, entries]
  norm_num [get_crossed, Scalar.supremum_eq, Scalar.larger_eq, Scalar.ratio_eq, ExactField.abs_eq]

section

variable {q : Matrix (Fin 2) (Fin 2) ℝ} {w : Fin 2 → ℝ} (orthogonal : q * qᵀ = 1)
  (eigenvalues : crossed.symmetrized.toMatrix = q * diagonal w * qᵀ)

include orthogonal eigenvalues

theorem eigenvalues_crossed : ∃ k, w k = -1 ∧ ∀ i ≠ k, w i = 1 := by
  have inner : qᵀ * q = 1 := mul_eq_one_comm.1 orthogonal
  have involution : crossed.symmetrized.toMatrix * crossed.symmetrized.toMatrix = 1 := by
    ext i j
    fin_cases i <;> fin_cases j <;> simp [Matrix.mul_apply, get_crossed]
  -- the square of the matrix is the identity and its trace is zero
  have squares : diagonal w * diagonal w = 1 := calc
    diagonal w * diagonal w = qᵀ * (q * diagonal w * qᵀ * (q * diagonal w * qᵀ)) * q := by
      simp only [Matrix.mul_assoc, inner, Matrix.mul_one]
      simp only [← Matrix.mul_assoc, inner, Matrix.one_mul]
    _ = 1 := by rw [← eigenvalues, involution, Matrix.mul_one, inner]
  have trace : 0 = w 0 + w 1 := by
    have traces := congrArg Matrix.trace eigenvalues
    rw [Matrix.trace_mul_comm, ← Matrix.mul_assoc, inner, Matrix.one_mul] at traces
    simpa [Matrix.trace, get_crossed] using traces
  have square : w 0 * w 0 = 1 := by simpa using congrFun (congrFun squares 0) 0
  rcases mul_self_eq_one_iff.1 square with one | one
  · refine ⟨1, by linarith, fun i other => ?_⟩
    obtain rfl : i = 0 := by omega
    exact one
  · refine ⟨0, one, fun i other => ?_⟩
    rw [Fin.eq_one_of_ne_zero i other]
    linarith

theorem raisedMatrix_crossed {least : ℝ} (positive : 0 < least) (below : least < 1) : raisedMatrix least q w =
    ((1 + least) / 2) • 1 + ((1 - least) / 2) • crossed.symmetrized.toMatrix := by
  obtain ⟨k, low, high⟩ := eigenvalues_crossed orthogonal eigenvalues
  have raised : (diagonal fun i => max (w i) least) =
      ((1 + least) / 2) • (1 : Matrix (Fin 2) (Fin 2) ℝ) + ((1 - least) / 2) • diagonal w := by
    rw [← diagonal_one, ← diagonal_smul, ← diagonal_smul, diagonal_add]
    congr 1
    ext i
    rw [Pi.smul_apply, Pi.smul_apply, smul_eq_mul, smul_eq_mul]
    rcases eq_or_ne i k with rfl | other
    · rw [low, max_eq_right (by linarith)]
      ring
    · rw [high i other, max_eq_left below.le]
      ring
  rw [raisedMatrix, raised, Matrix.mul_add, Matrix.add_mul, Matrix.mul_smul, Matrix.smul_mul, Matrix.mul_smul,
    Matrix.smul_mul, Matrix.mul_one, orthogonal, ← eigenvalues]

end

theorem raised_blocks_step_of_crossed : ∃ s, step .blocks (.dense crossed) #v[1, 0] = .ok s ∧ s.modified = 1 ∧
    s.shift = 67108865 / 67108864 ∧ s.direction = #v[-67108865 / 2, 67108863 / 2] := by
  obtain ⟨general, -⟩ := raised_blocks_step crossed #v[1, 0]
  obtain ⟨s, q, w, e, stepped, raises⟩ := general _ (leastEigenvalue crossed.symmetrized) _ 1
    (fun a b c nonzero => Rotation.ofSymmetric_diagonalizes nonzero) (leastEigenvalue_pos _) factors_crossed
  have middle := raises.eigenvalues
  have product := factors_crossed.product
  rw [Matrix.one_mul, Matrix.transpose_one, Matrix.mul_one] at product
  rw [product] at middle
  obtain ⟨k, low, high⟩ := eigenvalues_crossed raises.orthogonal middle
  have least := least_crossed
  have lowest (i : Fin 2) : w i < leastEigenvalue crossed.symmetrized ↔ i = k := by
    rcases eq_or_ne i k with rfl | other
    · norm_num [low, least]
    · norm_num [high i other, least, other]
  have solves := raises.solves
  rw [raises.raised, raisedMatrix_crossed raises.orthogonal middle (leastEigenvalue_pos _) (by norm_num [least]),
    Matrix.one_mul, Matrix.transpose_one, Matrix.mul_one, least] at solves
  refine ⟨s, ?_, ?_, ?_, ?_⟩
  · rw [step, raised, Dense.isFinite_eq_true]
    exact stepped
  · rw [raises.modified, Finset.card_eq_one]
    exact ⟨k, Finset.ext fun i => by simp [lowest]⟩
  · obtain ⟨⟨i, below, lift⟩, -⟩ := raises.lifted ⟨k, (lowest k).2 rfl⟩
    rw [← lift, (lowest i).1 below, low, least]
    norm_num
  · have first : (1 + 1 / 67108864) / 2 * s.direction.get 0 + (1 - 1 / 67108864) / 2 * s.direction.get 1 = -1 := by
      simpa [Matrix.add_mulVec, Matrix.mulVec, dotProduct, get_crossed] using congrFun solves 0
    have second : (1 - 1 / 67108864) / 2 * s.direction.get 0 + (1 + 1 / 67108864) / 2 * s.direction.get 1 = 0 := by
      simpa [Matrix.add_mulVec, Matrix.mulVec, dotProduct, get_crossed] using congrFun solves 1
    apply Vec.ext_get
    ext i
    fin_cases i
    · change s.direction.get 0 = -67108865 / 2
      linarith
    · change s.direction.get 1 = 67108863 / 2
      linarith

end Descent.Regularizer
