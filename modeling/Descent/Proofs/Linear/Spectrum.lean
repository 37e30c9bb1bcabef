import Mathlib
import Descent.Proofs.Linear.Blocks

namespace Descent.Block

open Matrix Polynomial

variable {α : Type} {n : Nat}

theorem Tiles.add_length_le {first : Nat} {blocks : List (Block n)} (tiles : Tiles first blocks) :
    first + blocks.length ≤ n := by
  induction blocks generalizing first with
  | nil => exact Nat.le_of_eq tiles
  | cons b rest ih =>
      rw [List.length_cons]
      cases b with
      | single i =>
          have behind := ih tiles.2
          omega
      | double i j =>
          have behind := ih tiles.2.2
          omega

/-- What is outside the blocks vanishes in any reading of the entries for which zeros are zero. -/
theorem Makes.charpoly_eq [Scalar α] {d : Dense α n n} {blocks : List (Block n)} (makes : Makes d blocks) {R : Type}
    [CommRing R] (value : α → R) (zeros : ∀ a, Scalar.same a 0 = true → value a = 0) :
    (Matrix.of fun i j => value (d.get i j)).charpoly =
      (blocks.map fun b => (part (.of fun i j => value (d.get i j)) b).charpoly).prod :=
  makes.tiles.charpoly_eq fun i j apart => zeros _ (makes.apart i j apart)

theorem charpoly_part_single {R : Type} [CommRing R] (m : Matrix (Fin n) (Fin n) R) (i : Fin n) :
    (part m (.single i)).charpoly = X - C (m i i) := by
  let block : Matrix (Fin 1) (Fin 1) R := part m (.single i)
  have linear : block.charpoly = X - C (block 0 0) := by
    rw [Matrix.charpoly, Matrix.det_fin_one, charmatrix_apply_eq]
  exact linear

theorem charpoly_part_double {R : Type} [CommRing R] [Nontrivial R] (m : Matrix (Fin n) (Fin n) R) (i j : Fin n) :
    (part m (.double i j)).charpoly = X ^ 2 - C (m i i + m j j) * X + C (m i i * m j j - m i j * m j i) := by
  let block : Matrix (Fin 2) (Fin 2) R := part m (.double i j)
  have quadratic : block.charpoly =
      X ^ 2 - C (block 0 0 + block 1 1) * X + C (block 0 0 * block 1 1 - block 0 1 * block 1 0) := by
    rw [Matrix.charpoly_fin_two, Matrix.trace_fin_two, Matrix.det_fin_two]
  exact quadratic

section

variable [ExactReal α] {d : Dense α n n}

theorem charpoly_part (symmetric : ∀ i j, d.get i j = d.get j i) {b : Block n}
    (joined : ∀ i j, b = .double i j → d.get j i ≠ 0) :
    (part d.toMatrix b).charpoly =
      ((Regularizer.blockEigenvalues Rotation.ofSymmetric d b).map fun w => X - C w).prod := by
  cases b with
  | single i =>
      rw [charpoly_part_single, Dense.toMatrix_apply, Regularizer.blockEigenvalues, List.map_singleton,
        List.prod_singleton]
  | double i j =>
      set r := Regularizer.pairRotation Rotation.ofSymmetric d i j with r_eq
      have parts : r.Diagonalizes (d.get i i) (d.get j i) (d.get j j) :=
        Rotation.ofSymmetric_diagonalizes (joined i j rfl)
      have trace : d.get i i + d.get j j = r.first + r.second := by
        linear_combination -parts.first - parts.second + (r.first + r.second) * parts.unit
      have det : d.get i i * d.get j j - d.get j i * d.get j i = r.first * r.second := by
        rw [← parts.first, ← parts.mixed, ← parts.second]
        linear_combination
          r.first * r.second * (r.cosine * r.cosine + r.sine * r.sine + 1) * parts.unit
      rw [charpoly_part_double]
      simp only [Dense.toMatrix_apply]
      rw [symmetric i j, trace, det, Regularizer.blockEigenvalues, ← r_eq, List.map_cons,
        List.map_singleton, List.prod_pair, C_add, C_mul]
      ring

theorem Makes.charpoly_eigenvalues {blocks : List (Block n)} (makes : Makes d blocks)
    (symmetric : ∀ i j, d.get i j = d.get j i) :
    d.toMatrix.charpoly =
      ((blocks.flatMap (Regularizer.blockEigenvalues Rotation.ofSymmetric d)).map fun w => X - C w).prod := by
  have parts := makes.charpoly_eq (fun a : α => a) fun a => Scalar.same_iff.1
  rw [List.map_flatMap, List.flatMap, List.prod_flatten, List.map_map]
  refine parts.trans (congrArg List.prod (List.map_congr_left fun b member => ?_))
  refine charpoly_part symmetric fun i j double zero => ?_
  have nonzero := makes.joined i j (double ▸ member)
  exact Bool.eq_false_iff.1 nonzero (Scalar.same_iff.2 zero)

end

/-- The blocks that are read follow each other from the first row to the last, for every matrix. If the matrix is
made of blocks, they are just these: what is outside them is zero, and the eigenvalues are theirs. -/
theorem blocks_recovered :
    (∀ {α : Type} [Scalar α] {n : Nat} (d : Dense α n n),
      Tiles 0 (scan d) ∧ (scan d).flatMap positions = List.finRange n ∧ (scan d).length ≤ n) ∧
    (∀ {α : Type} [Scalar α] {n : Nat} (d : Dense α n n) (blocks : List (Block n)), Makes d blocks →
      scan d = blocks ∧
      (∀ i j, (∀ b ∈ scan d, i ∈ b.positions → j ∉ b.positions) → Scalar.same (d.get i j) 0 = true) ∧
      ∀ {R : Type} [CommRing R] (value : α → R), (∀ a, Scalar.same a 0 = true → value a = 0) →
        (Matrix.of fun i j => value (d.get i j)).charpoly =
          ((scan d).map fun b => (part (.of fun i j => value (d.get i j)) b).charpoly).prod) ∧
    ∀ {α : Type} [ExactReal α] {n : Nat} (d : Dense α n n) (blocks : List (Block n)), Makes d blocks →
      (∀ i j, d.get i j = d.get j i) →
        d.toMatrix.charpoly =
          (((scan d).flatMap (Regularizer.blockEigenvalues Rotation.ofSymmetric d)).map fun w => X - C w).prod := by
  refine ⟨fun d => ⟨tiles_scan d, flatMap_positions d, ?_⟩, fun d blocks makes => ?_,
    fun d blocks makes symmetric => ?_⟩
  · rw [← Nat.zero_add (scan d).length]
    exact (tiles_scan d).add_length_le
  · rw [makes.scan_eq]
    exact ⟨rfl, makes.apart, fun value zeros => makes.charpoly_eq value zeros⟩
  · rw [makes.scan_eq]
    exact makes.charpoly_eigenvalues symmetric

def exchanges (α : Type) [Scalar α] : Dense α 5 5 :=
  .ofFn fun i j => if (i.val + 1) / 2 = (j.val + 1) / 2 ∧ (i ≠ j ∨ i = 0) then 1 else 0

theorem makes_exchanges [Scalar α] (zero : Scalar.same (0 : α) 0 = true) (one : Scalar.same (1 : α) 0 = false) :
    Makes (exchanges α) [.single 0, .double 1 2, .double 3 4] := by
  have joined : ∀ i j : Fin 5, .double i j ∈ [Block.single 0, .double 1 2, .double 3 4] →
      (j.val + 1) / 2 = (i.val + 1) / 2 ∧ (j ≠ i ∨ j = 0) := by decide
  have apart : ∀ i j : Fin 5, (∀ b ∈ [Block.single 0, .double 1 2, .double 3 4], i ∈ b.positions → j ∉ b.positions) →
      ¬((i.val + 1) / 2 = (j.val + 1) / 2 ∧ (i ≠ j ∨ i = 0)) := by decide
  refine ⟨by decide, fun i j member => ?_, fun i j outside => ?_⟩
  · rw [exchanges, Dense.get_ofFn, if_pos (joined i j member), one]
  · rw [exchanges, Dense.get_ofFn, if_neg (apart i j outside), zero]

theorem exchanges_recovered :
    scan (exchanges Float) = [.single 0, .double 1 2, .double 3 4] ∧
    scan (exchanges ℝ) = [.single 0, .double 1 2, .double 3 4] ∧
    (exchanges ℝ).toMatrix.charpoly =
      ((scan (exchanges ℝ)).map fun b => (part (exchanges ℝ).toMatrix b).charpoly).prod ∧
    (exchanges ℝ).toMatrix.charpoly = (((scan (exchanges ℝ)).flatMap
      (Regularizer.blockEigenvalues Rotation.ofSymmetric (exchanges ℝ))).map fun w => X - C w).prod := by
  have floats : Makes (exchanges Float) _ := makes_exchanges (by decide +kernel) (by decide +kernel)
  have reals : Makes (exchanges ℝ) _ :=
    makes_exchanges (Scalar.same_iff.2 rfl) (Bool.eq_false_iff.2 fun same => one_ne_zero (Scalar.same_iff.1 same))
  have symmetric (i j : Fin 5) : (exchanges ℝ).get i j = (exchanges ℝ).get j i := by
    simp only [exchanges, Dense.get_ofFn]
    refine if_congr ?_ rfl rfl
    revert i j
    decide
  have found := blocks_recovered.2.1 _ _ reals
  exact ⟨(blocks_recovered.2.1 _ _ floats).1, found.1, found.2.2 (fun a => a) fun a => Scalar.same_iff.1,
    blocks_recovered.2.2 _ _ reals symmetric⟩

end Descent.Block
