import Mathlib
import Descent.Factor.Blocks
import Descent.Proofs.ExactField

namespace Descent.Rotation

variable {α : Type}

structure Diagonalizes [ExactField α] (r : Rotation α) (a b c : α) : Prop where
  unit : r.cosine * r.cosine + r.sine * r.sine = 1
  first : r.first * (r.cosine * r.cosine) + r.second * (r.sine * r.sine) = a
  mixed : (r.first - r.second) * (r.cosine * r.sine) = b
  second : r.first * (r.sine * r.sine) + r.second * (r.cosine * r.cosine) = c

section

variable [ExactField α] {a b c x y v w : α} {r : Rotation α}

theorem diagonalizes_of_eigenvector (unit : x * x + y * y = 1) (upper : a * x + b * y = v * x)
    (lower : b * x + c * y = v * y) (trace : v + w = a + c) : Diagonalizes ⟨v, w, x, y⟩ a b c := by
  obtain rfl : w = a + c - v := eq_sub_of_add_eq' trace
  constructor
  case unit => exact unit
  case first => linear_combination a * unit - x * upper + y * lower
  case mixed => linear_combination b * unit - y * upper - x * lower
  case second => linear_combination c * unit + x * upper - y * lower

theorem Diagonalizes.swap (diagonalizes : Diagonalizes ⟨v, w, x, y⟩ a b c) :
    Diagonalizes ⟨w, v, -y, x⟩ a b c := by
  obtain ⟨unit, first, mixed, second⟩ := diagonalizes
  constructor
  case unit => linear_combination unit
  case first => linear_combination first
  case mixed => linear_combination mixed
  case second => linear_combination second

theorem Diagonalizes.scale {k : α} (nonzero : k ≠ 0) (diagonalizes : r.Diagonalizes (a * k) (b * k) (c * k)) :
    Diagonalizes ⟨r.first * (1 / k), r.second * (1 / k), r.cosine, r.sine⟩ a b c := by
  obtain ⟨unit, first, mixed, second⟩ := diagonalizes
  have cancel : k * (1 / k) = 1 := mul_one_div_cancel nonzero
  constructor
  case unit => exact unit
  case first => linear_combination (1 / k) * first + a * cancel
  case mixed => linear_combination (1 / k) * mixed + b * cancel
  case second => linear_combination (1 / k) * second + c * cancel

end

section

variable [ExactReal α] {a b c : α}

theorem hypotenuse_nonneg {a b : α} (left : 0 ≤ a) (right : 0 ≤ b) : 0 ≤ hypotenuse a b := by
  have roots := ExactReal.sqrt_nonneg (α := α)
  rw [hypotenuse]
  split
  · exact mul_nonneg left (roots _)
  · split <;> exact mul_nonneg right (roots _)

theorem hypotenuse_mul_self {a b : α} (left : 0 ≤ a) (right : 0 ≤ b) :
    hypotenuse a b * hypotenuse a b = a * a + b * b := by
  have square {x y : α} (larger : y < x) (least : 0 ≤ y) :
      x * Scalar.sqrt (1 + y / x * (y / x)) * (x * Scalar.sqrt (1 + y / x * (y / x))) = x * x + y * y := by
    have nonzero : x ≠ 0 := (least.trans_lt larger).ne'
    have root := ExactReal.sqrt_mul_self (1 + y / x * (y / x)) (add_nonneg zero_le_one (mul_self_nonneg _))
    rw [mul_mul_mul_comm, root, mul_add, mul_one, mul_mul_mul_comm, mul_div_cancel₀ y nonzero]
  rw [hypotenuse]
  split
  · rename_i larger
    exact square larger right
  · rename_i notLarger
    split
    · rename_i larger
      exact (square larger left).trans (add_comm _ _)
    · rename_i notSmaller
      obtain rfl : a = b := le_antisymm (not_lt.1 notLarger) (not_lt.1 notSmaller)
      have root := ExactReal.sqrt_mul_self (Scalar.ofNat 2 : α) (by rw [ExactField.ofNat_eq]; positivity)
      rw [mul_mul_mul_comm, root, ExactField.ofNat_eq, Nat.cast_ofNat, mul_two]

theorem eigenvalues_eq {root : α} (apart : 0 < root) (square : root * root = (a - c) * (a - c) + (b + b) * (b + b)) :
    (eigenvalues a b c root).1 = (if a + c < 0 then a + c - root else a + c + root) / 2 ∧
      (eigenvalues a b c root).1 + (eigenvalues a b c root).2 = a + c := by
  have half : (Scalar.ratio 1 2 : α) = 1 / 2 := by rw [Scalar.ratio_eq, Nat.cast_one, Nat.cast_ofNat]
  rw [eigenvalues]
  obtain ⟨⟨large, small⟩, sizes⟩ : ∃ sizes, (if Scalar.abs c < Scalar.abs a then (a, c) else (c, a)) = sizes :=
    ⟨_, rfl⟩
  have product : large * small = a * c := by
    split at sizes <;> cases sizes
    · rfl
    · exact mul_comm _ _
  -- both eigenvalues are roots of the characteristic polynomial
  have total {first : α} (nonzero : first ≠ 0) (vanishes : first * first + a * c - b * b = (a + c) * first) :
      first + (large / first * small - b / first * b) = a + c := by
    field_simp
    linear_combination vanishes + product
  simp only [sizes, half]
  rcases lt_trichotomy (a + c) 0 with below | zero | above
  · simp only [if_pos below, if_pos (Or.inl below)]
    refine ⟨by ring, total (by linarith) ?_⟩
    linear_combination square / 4
  · simp only [zero, lt_irrefl, if_false, or_self]
    exact ⟨by ring, by ring⟩
  · simp only [if_neg above.not_gt, if_pos above, if_pos (Or.inr above)]
    refine ⟨by ring, total (by linarith) ?_⟩
    linear_combination square / 4

theorem unitNormal_spec (offset : α) {double : α} (nonzero : double ≠ 0) :
    (unitNormal offset double).1 * (unitNormal offset double).1 +
        (unitNormal offset double).2 * (unitNormal offset double).2 = 1 ∧
      offset * (unitNormal offset double).1 + double * (unitNormal offset double).2 = 0 := by
  have scaled (t : α) : (1 + t * t) * (1 / Scalar.sqrt (1 + t * t) * (1 / Scalar.sqrt (1 + t * t))) = 1 := by
    have positive : 0 < 1 + t * t := add_pos_of_pos_of_nonneg one_pos (mul_self_nonneg t)
    have root := ExactReal.sqrt_mul_self _ positive.le
    rw [div_mul_div_comm, root, one_mul, mul_one_div_cancel positive.ne']
  rw [unitNormal]
  split
  · rename_i larger
    have nonzero' : offset ≠ 0 := by
      rintro rfl
      rw [ExactField.abs_eq, ExactField.abs_eq, abs_zero] at larger
      exact larger.not_ge (abs_nonneg _)
    have unit := scaled (-double / offset)
    constructor
    · linear_combination unit
    · field_simp
      ring
  · rw [if_neg]
    · have unit := scaled (-offset / double)
      constructor
      · linear_combination unit
      · field_simp
        ring
    · rw [Scalar.same_iff, ExactField.abs_eq]
      exact abs_ne_zero.2 nonzero

theorem unitNormal_diagonalizes {offset v w : α} (nonzero : b ≠ 0)
    (turned : offset * offset = 2 * (a - c) * offset + (b + b) * (b + b)) (first : v = a - offset / 2)
    (trace : v + w = a + c) :
    Diagonalizes ⟨v, w, (unitNormal offset (b + b)).1, (unitNormal offset (b + b)).2⟩ a b c := by
  have nonzero' : b + b ≠ 0 := by
    rw [← two_mul]
    exact mul_ne_zero two_ne_zero nonzero
  obtain ⟨unit, normal⟩ := unitNormal_spec offset nonzero'
  refine diagonalizes_of_eigenvector unit ?_ (mul_left_cancel₀ nonzero' ?_) trace
  · rw [first]
    linear_combination normal / 2
  · rw [first]
    linear_combination (c - a + offset / 2) * normal - (unitNormal offset (b + b)).1 * turned / 2

theorem ofModerate_diagonalizes (nonzero : b ≠ 0) : (ofModerate a b c).Diagonalizes a b c := by
  obtain ⟨root, defined⟩ : ∃ root, root = hypotenuse (Scalar.abs (a - c)) (Scalar.abs (b + b)) := ⟨_, rfl⟩
  have square : root * root = (a - c) * (a - c) + (b + b) * (b + b) := by
    rw [defined, ExactField.abs_eq, ExactField.abs_eq, hypotenuse_mul_self (abs_nonneg _) (abs_nonneg _),
      abs_mul_abs_self, abs_mul_abs_self]
  have apart : 0 < root := by
    have least : 0 ≤ root := by
      rw [defined, ExactField.abs_eq, ExactField.abs_eq]
      exact hypotenuse_nonneg (abs_nonneg _) (abs_nonneg _)
    refine least.lt_of_ne' fun zero => nonzero ?_
    rw [zero, mul_zero] at square
    nlinarith [mul_self_nonneg (a - c), mul_self_nonneg b]
  obtain ⟨value, trace⟩ := eigenvalues_eq apart square
  simp only [ofModerate, ← defined]
  by_cases upward : 0 ≤ a - c <;> by_cases negative : a + c < 0 <;>
    simp only [upward, negative, decide_true, decide_false, if_true, if_false, Bool.false_eq_true] at value ⊢
  · exact unitNormal_diagonalizes nonzero (by linear_combination square) (by linear_combination value) trace
  · refine (unitNormal_diagonalizes nonzero ?_ ?_ ((add_comm _ _).trans trace)).swap
    · linear_combination square
    · linear_combination trace - value
  · refine (unitNormal_diagonalizes nonzero ?_ ?_ ((add_comm _ _).trans trace)).swap
    · linear_combination square
    · linear_combination trace - value
  · exact unitNormal_diagonalizes nonzero (by linear_combination square) (by linear_combination value) trace

theorem ratio_pow_pos (k : Nat) : 0 < (Scalar.ratio 1 (Nat.pow 2 k) : α) :=
  Scalar.ratio_pos one_pos (Nat.pow_pos two_pos)

theorem largestModerate_pos : 0 < (largestModerate : α) := by
  rw [largestModerate, smallestNormal]
  generalize 1022 = k
  exact one_div_pos.2 (Scalar.sqrt_pos (Scalar.sqrt_pos (ratio_pow_pos k)))

theorem ofSymmetric_diagonalizes (nonzero : b ≠ 0) : (ofSymmetric a b c).Diagonalizes a b c := by
  have scaled {factor : α} (some : factor ≠ 0) :=
    (ofModerate_diagonalizes (a := a * factor) (c := c * factor) (mul_ne_zero nonzero some)).scale some
  rw [ofSymmetric]
  split
  · rename_i small
    exact scaled (div_pos (ratio_pow_pos _) small.1).ne'
  · split
    · rename_i large
      exact scaled (div_pos largestModerate_pos (largestModerate_pos.trans large)).ne'
    · exact ofModerate_diagonalizes nonzero

end

end Descent.Rotation
