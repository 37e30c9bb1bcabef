import Mathlib
import Descent.Regularizer
import Descent.Proofs.Linear.Basic
import Descent.Proofs.Linear.Rotations
import Descent.Proofs.Linear.Tilings

namespace Descent

open Matrix

variable {α : Type} {n : Nat}

structure PlaneRotations (α : Type) [ExactField α] (n : Nat) where
  partner : Fin n → Fin n
  cosine : Fin n → α
  sine : Fin n → α
  involutive : ∀ i, partner (partner i) = i
  cosine_partner : ∀ i, cosine (partner i) = cosine i
  sine_partner : ∀ i, sine (partner i) = -sine i
  unit : ∀ i, cosine i * cosine i + sine i * sine i = 1

namespace PlaneRotations

variable [ExactField α] (r : PlaneRotations α n)

def toMatrix : Matrix (Fin n) (Fin n) α :=
  .of fun i k => (if i = k then r.cosine k else 0) + if i = r.partner k then r.sine k else 0

theorem mulVec_apply (x : Fin n → α) (i : Fin n) :
    (r.toMatrix *ᵥ x) i = r.cosine i * x i - r.sine i * x (r.partner i) := by
  have turned (k : Fin n) : i = r.partner k ↔ k = r.partner i := by
    constructor <;> rintro rfl <;> exact (r.involutive _).symm
  simp only [mulVec, dotProduct, toMatrix, of_apply, add_mul, Finset.sum_add_distrib, ite_mul, zero_mul, turned,
    Finset.sum_ite_eq, Finset.sum_ite_eq', Finset.mem_univ, if_true, r.sine_partner, neg_mul]
  exact (sub_eq_add_neg _ _).symm

theorem transpose_mulVec_apply (x : Fin n → α) (k : Fin n) :
    (r.toMatrixᵀ *ᵥ x) k = r.cosine k * x k + r.sine k * x (r.partner k) := by
  simp [mulVec, dotProduct, toMatrix, add_mul, Finset.sum_add_distrib]

theorem orthogonal : r.toMatrix * r.toMatrixᵀ = 1 := by
  refine ext_iff_mulVec.2 fun x => funext fun i => ?_
  rw [← mulVec_mulVec, mulVec_apply, transpose_mulVec_apply, transpose_mulVec_apply, one_mulVec, r.involutive,
    r.cosine_partner, r.sine_partner]
  linear_combination x i * r.unit i

theorem eq_diagonal {d : Matrix (Fin n) (Fin n) α} {w : Fin n → α} (acts : ∀ x i, (d *ᵥ x) i =
      (w i * (r.cosine i * r.cosine i) + w (r.partner i) * (r.sine i * r.sine i)) * x i +
        (w i - w (r.partner i)) * (r.cosine i * r.sine i) * x (r.partner i)) :
    d = r.toMatrix * diagonal w * r.toMatrixᵀ := by
  refine ext_iff_mulVec.2 fun x => funext fun i => ?_
  rw [acts, ← mulVec_mulVec, ← mulVec_mulVec, mulVec_apply, mulVec_diagonal, mulVec_diagonal,
    transpose_mulVec_apply, transpose_mulVec_apply, r.involutive, r.cosine_partner, r.sine_partner]
  ring

end PlaneRotations

section

variable [ExactField α]

def Paired (d : Dense α n n) (i j : Fin n) : Prop := j.val = i.val + 1 ∧ d.get j i ≠ 0

structure BlockDiagonal (d : Dense α n n) : Prop where
  symmetric : ∀ i j, d.get i j = d.get j i
  near : ∀ i j : Fin n, i.val + 1 < j.val → d.get i j = 0
  apart : ∀ i j k, Paired d i j → ¬Paired d j k

structure Axis (α : Type) (n : Nat) where
  partner : Fin n
  cosine : α
  sine : α
  value : α

variable (decompose : (a b c : α) → Rotation α) (d : Dense α n n)

open Classical in
noncomputable def axis (i : Fin n) : Axis α n :=
  if upper : ∃ j, Paired d i j then
    let r := Regularizer.pairRotation decompose d i upper.choose
    ⟨upper.choose, r.cosine, r.sine, r.first⟩
  else if lower : ∃ j, Paired d j i then
    let r := Regularizer.pairRotation decompose d lower.choose i
    ⟨lower.choose, r.cosine, -r.sine, r.second⟩
  else ⟨i, 1, 0, d.get i i⟩

variable {decompose d} {i j : Fin n}

theorem Paired.unique_right {j' : Fin n} (pair : Paired d i j) (pair' : Paired d i j') : j = j' :=
  Fin.ext (pair.1.trans pair'.1.symm)

theorem Paired.unique_left {i' : Fin n} (pair : Paired d i j) (pair' : Paired d i' j) : i = i' :=
  Fin.ext (Nat.succ_injective (pair.1.symm.trans pair'.1))

theorem Paired.axis_left (pair : Paired d i j) : axis decompose d i =
    ⟨j, (Regularizer.pairRotation decompose d i j).cosine, (Regularizer.pairRotation decompose d i j).sine,
      (Regularizer.pairRotation decompose d i j).first⟩ := by
  have upper : ∃ j, Paired d i j := ⟨j, pair⟩
  rw [axis, dif_pos upper, ← pair.unique_right upper.choose_spec]

theorem BlockDiagonal.axis_right (blocks : BlockDiagonal d) (pair : Paired d i j) : axis decompose d j =
    ⟨i, (Regularizer.pairRotation decompose d i j).cosine, -(Regularizer.pairRotation decompose d i j).sine,
      (Regularizer.pairRotation decompose d i j).second⟩ := by
  have upper : ¬∃ k, Paired d j k := fun some => blocks.apart i j _ pair some.choose_spec
  have lower : ∃ i, Paired d i j := ⟨i, pair⟩
  rw [axis, dif_neg upper, dif_pos lower, ← pair.unique_left lower.choose_spec]

theorem Paired.diagonalizes (pair : Paired d i j)
    (exact : ∀ a b c : α, b ≠ 0 → (decompose a b c).Diagonalizes a b c) :
    (Regularizer.pairRotation decompose d i j).Diagonalizes (d.get i i) (d.get j i) (d.get j j) :=
  exact _ _ _ pair.2

def Alone (d : Dense α n n) (i : Fin n) : Prop := ∀ j, ¬Paired d i j ∧ ¬Paired d j i

theorem Alone.axis (alone : Alone d i) : axis decompose d i = ⟨i, 1, 0, d.get i i⟩ := by
  have upper : ¬∃ j, Paired d i j := not_exists.2 fun j => (alone j).1
  have lower : ¬∃ j, Paired d j i := not_exists.2 fun j => (alone j).2
  rw [Descent.axis, dif_neg upper, dif_neg lower]

theorem paired_or_alone (d : Dense α n n) (i : Fin n) : (∃ j, Paired d i j) ∨ (∃ j, Paired d j i) ∨ Alone d i := by
  by_cases upper : ∃ j, Paired d i j
  · exact .inl upper
  · by_cases lower : ∃ j, Paired d j i
    · exact .inr (.inl lower)
    · exact .inr (.inr fun j => ⟨not_exists.1 upper j, not_exists.1 lower j⟩)

namespace BlockDiagonal

variable (blocks : BlockDiagonal d)
  (exact : ∀ a b c : α, b ≠ 0 → (decompose a b c).Diagonalizes a b c)

noncomputable def rotations : PlaneRotations α n where
  partner i := (axis decompose d i).partner
  cosine i := (axis decompose d i).cosine
  sine i := (axis decompose d i).sine
  involutive i := by
    rcases paired_or_alone d i with ⟨j, pair⟩ | ⟨j, pair⟩ | alone
    · rw [pair.axis_left, blocks.axis_right pair]
    · rw [blocks.axis_right pair, pair.axis_left]
    · rw [alone.axis, alone.axis]
  cosine_partner i := by
    rcases paired_or_alone d i with ⟨j, pair⟩ | ⟨j, pair⟩ | alone
    · rw [pair.axis_left, blocks.axis_right pair]
    · rw [blocks.axis_right pair, pair.axis_left]
    · rw [alone.axis, alone.axis]
  sine_partner i := by
    rcases paired_or_alone d i with ⟨j, pair⟩ | ⟨j, pair⟩ | alone
    · rw [pair.axis_left, blocks.axis_right pair]
    · rw [blocks.axis_right pair, pair.axis_left, neg_neg]
    · rw [alone.axis, alone.axis, neg_zero]
  unit i := by
    rcases paired_or_alone d i with ⟨j, pair⟩ | ⟨j, pair⟩ | alone
    · rw [pair.axis_left]
      exact (pair.diagonalizes exact).unit
    · rw [blocks.axis_right pair, neg_mul_neg]
      exact (pair.diagonalizes exact).unit
    · rw [alone.axis, mul_one, mul_zero, add_zero]

theorem rotations_apply_ne_zero {i k : Fin n} (nonzero : (blocks.rotations exact).toMatrix i k ≠ 0) :
    i = k ∨ d.get i k ≠ 0 := by
  by_contra apart
  obtain ⟨other, separate⟩ := not_or.1 apart
  rw [not_not] at separate
  have turned : i = (axis decompose d k).partner := by
    by_contra away
    apply nonzero
    simp [PlaneRotations.toMatrix, rotations, other, away]
  rcases paired_or_alone d k with ⟨j, pair⟩ | ⟨j, pair⟩ | alone
  · rw [pair.axis_left] at turned
    obtain rfl : i = j := turned
    exact pair.2 separate
  · rw [blocks.axis_right pair] at turned
    obtain rfl : i = j := turned
    exact pair.2 ((blocks.symmetric k i).trans separate)
  · rw [alone.axis] at turned
    exact other turned

include blocks

theorem joined (nonzero : d.get i j ≠ 0) : i = j ∨ Paired d i j ∨ Paired d j i := by
  rcases lt_trichotomy i j with before | same | behind
  · have next : j.val = i.val + 1 := by
      by_contra other
      exact nonzero (blocks.near i j (by omega))
    exact .inr (.inl ⟨next, blocks.symmetric i j ▸ nonzero⟩)
  · exact .inl same
  · have next : i.val = j.val + 1 := by
      by_contra other
      exact nonzero (blocks.symmetric i j ▸ blocks.near j i (by omega))
    exact .inr (.inr ⟨next, nonzero⟩)

theorem mulVec_left (pair : Paired d i j) (x : Fin n → α) :
    (d.toMatrix *ᵥ x) i = d.get i i * x i + d.get i j * x j := by
  have apart : i ≠ j := by
    rintro rfl
    exact i.val.lt_succ_self.ne pair.1
  refine Fintype.sum_eq_add i j apart fun k other => ?_
  have zero : d.get i k = 0 := by
    by_contra nonzero
    rcases blocks.joined nonzero with same | above | below
    · exact other.1 same.symm
    · exact other.2 (above.unique_right pair)
    · exact blocks.apart k i j below pair
  exact mul_eq_zero_of_left zero _

theorem mulVec_right (pair : Paired d i j) (x : Fin n → α) :
    (d.toMatrix *ᵥ x) j = d.get j j * x j + d.get j i * x i := by
  have apart : j ≠ i := by
    rintro rfl
    exact j.val.lt_succ_self.ne pair.1
  refine Fintype.sum_eq_add j i apart fun k other => ?_
  have zero : d.get j k = 0 := by
    by_contra nonzero
    rcases blocks.joined nonzero with same | above | below
    · exact other.1 same.symm
    · exact blocks.apart i j k pair above
    · exact other.2 (below.unique_left pair)
  exact mul_eq_zero_of_left zero _

theorem mulVec_alone (alone : Alone d i) (x : Fin n → α) : (d.toMatrix *ᵥ x) i = d.get i i * x i := by
  refine Fintype.sum_eq_single i fun k other => ?_
  have zero : d.get i k = 0 := by
    by_contra nonzero
    rcases blocks.joined nonzero with same | above | below
    · exact other same.symm
    · exact (alone k).1 above
    · exact (alone k).2 below
  exact mul_eq_zero_of_left zero _

theorem eq_diagonal : d.toMatrix = (blocks.rotations exact).toMatrix *
    diagonal (fun i => (axis decompose d i).value) * (blocks.rotations exact).toMatrixᵀ := by
  apply PlaneRotations.eq_diagonal
  intro x i
  simp only [rotations]
  rcases paired_or_alone d i with ⟨j, pair⟩ | ⟨j, pair⟩ | alone
  · have parts := pair.diagonalizes exact
    rw [blocks.mulVec_left pair, blocks.symmetric i j, pair.axis_left, blocks.axis_right pair]
    simp only [parts.first, parts.mixed]
  · have parts := pair.diagonalizes exact
    rw [blocks.mulVec_right pair, blocks.axis_right pair, pair.axis_left]
    linear_combination (-x i) * parts.second - x j * parts.mixed
  · rw [blocks.mulVec_alone alone, alone.axis, alone.axis]
    ring

end BlockDiagonal

namespace Block

def Fits (d : Dense α n n) : Block n → Prop
  | .single i => Alone d i
  | .double i j => Paired d i j

theorem scan_fits {d : Dense α n n} (blocks : BlockDiagonal d) : ∀ b ∈ scan d, b.Fits d := by
  -- a block starts where no pair of an earlier row ends
  have rest (i : Nat) (enters : ∀ j k : Fin n, k.val = i → ¬Paired d j k) : ∀ b ∈ scanFrom d i, b.Fits d := by
    fun_induction scanFrom d i with
    | case1 i inside zero ih =>
        have none (j k : Fin n) (here : j.val = i) : ¬Paired d j k := by
          rintro ⟨next, joined⟩
          obtain rfl : j = ⟨i, Nat.lt_of_succ_lt inside⟩ := Fin.ext here
          obtain rfl : k = ⟨i + 1, inside⟩ := Fin.ext next
          exact joined (Scalar.same_iff.1 zero)
        refine List.forall_mem_cons.2 ⟨fun j => ⟨none _ j rfl, enters j _ rfl⟩, ih fun j k here pair => ?_⟩
        exact none j k (Nat.succ_injective (pair.1.symm.trans here)) pair
    | case2 i inside nonzero ih =>
        have pair : Paired d ⟨i, Nat.lt_of_succ_lt inside⟩ ⟨i + 1, inside⟩ :=
          ⟨rfl, fun zero => nonzero (Scalar.same_iff.2 zero)⟩
        refine List.forall_mem_cons.2 ⟨pair, ih fun j k here pair' => ?_⟩
        obtain rfl : j = ⟨i + 1, inside⟩ := Fin.ext (Nat.succ_injective (pair'.1.symm.trans here))
        exact blocks.apart _ _ k pair pair'
    | case3 i none last =>
        refine List.forall_mem_singleton.2 fun j => ⟨fun pair => none ?_, enters j _ rfl⟩
        exact pair.1 ▸ j.isLt
    | case4 i none past =>
        intro b member
        cases member
  exact rest 0 fun j k first pair => Nat.succ_ne_zero _ (pair.1.symm.trans first)

end Block

namespace BlockDiagonal

variable (blocks : BlockDiagonal d)
  (exact : ∀ a b c : α, b ≠ 0 → (decompose a b c).Diagonalizes a b c)

include blocks in
theorem blockEigenvalues_eq {b : Block n} (fits : b.Fits d) : Regularizer.blockEigenvalues decompose d b =
    b.positions.map fun i => (axis decompose d i).value := by
  cases b with
  | single i =>
      have alone : Alone d i := fits
      simp only [Regularizer.blockEigenvalues, Block.positions, List.map_cons, List.map_nil, alone.axis]
  | double i j =>
      have pair : Paired d i j := fits
      simp only [Regularizer.blockEigenvalues, Block.positions, List.map_cons, List.map_nil, pair.axis_left,
        blocks.axis_right pair]

include blocks in
theorem flatMap_lowEigenvalues (least : α) :
    (Block.scan d).flatMap (Regularizer.lowEigenvalues decompose least d) =
      ((List.finRange n).map fun i => (axis decompose d i).value).filter (· < least) := by
  rw [← Block.flatMap_positions d, List.map_flatMap, List.filter_flatMap]
  refine List.flatMap_congr fun b member => ?_
  rw [Regularizer.lowEigenvalues, blocks.blockEigenvalues_eq (Block.scan_fits blocks b member)]

noncomputable def solution (least : α) (y : Vector α n) : Fin n → α :=
  (blocks.rotations exact).toMatrix *ᵥ fun i =>
    ((blocks.rotations exact).toMatrixᵀ *ᵥ y.get) i / Regularizer.raise least (axis decompose d i).value

theorem get_solveBlock (least : α) (y z : Vector α n) {b : Block n} (fits : b.Fits d) (k : Fin n) :
    (Regularizer.solveBlock decompose least d y z b).get k =
      if k ∈ b.positions then blocks.solution exact least y k else z.get k := by
  simp only [solution, PlaneRotations.mulVec_apply, PlaneRotations.transpose_mulVec_apply, rotations]
  cases b with
  | single i =>
      have alone : Alone d i := fits
      simp only [Regularizer.solveBlock, Vec.get_put, Block.positions, List.mem_singleton]
      by_cases here : k = i
      · subst here
        simp [alone.axis]
      · simp [here, Ne.symm here]
  | double i j =>
      have pair : Paired d i j := fits
      simp only [Regularizer.solveBlock, Vec.get_put, Block.positions, List.mem_cons, List.not_mem_nil, or_false]
      by_cases right : k = j
      · subst right
        simp only [if_true, or_true, blocks.axis_right pair, pair.axis_left]
        ring
      · by_cases left : k = i
        · subst left
          simp only [if_neg (Ne.symm right), if_true, true_or, pair.axis_left, blocks.axis_right pair]
          ring
        · rw [if_neg (Ne.symm right), if_neg (Ne.symm left), if_neg (not_or.2 ⟨left, right⟩)]

theorem get_solveBlocks (least : α) (y : Vector α n) :
    (Regularizer.solveBlocks decompose least d (Block.scan d) y).get = blocks.solution exact least y := by
  ext k
  rw [Regularizer.solveBlocks, Vec.get_foldl_target fun b member z k =>
    blocks.get_solveBlock exact least y z (Block.scan_fits blocks b member) k, Block.flatMap_positions,
    if_pos (List.mem_finRange k)]

end BlockDiagonal

end

end Descent
