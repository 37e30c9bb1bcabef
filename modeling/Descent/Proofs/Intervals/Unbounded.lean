import Mathlib
import Descent.Proofs.Intervals
import Descent.Proofs.Numbers.Extended

namespace Descent.Interval

open Extended

variable {α : Type} [ExactField α] {i j : Interval (Extended α)} {x y : α}

theorem make?_contains {a lower upper : Extended α} (below : lower ≤ a) (above : a ≤ upper) :
    ∃ k, make? lower upper = .ok k ∧ k.contains a = true := by
  refine ⟨⟨lower, upper⟩, ?_, contains_iff.2 ⟨below, above⟩⟩
  rw [make?, if_neg fun empty => empty.2 (Extended.le_trans below above)]

/-! ## Sums, differences and squares -/

theorem add_contains (inside : i.contains (finite x) = true) (inside' : j.contains (finite y) = true) :
    ∃ k, i.add j = .ok k ∧ k.contains (finite (x + y)) = true := by
  obtain ⟨below, above⟩ := contains_iff.1 inside
  obtain ⟨below', above'⟩ := contains_iff.1 inside'
  exact make?_contains (add_le_finite below below') (finite_le_add above above')

theorem sub_contains (inside : i.contains (finite x) = true) (inside' : j.contains (finite y) = true) :
    ∃ k, i.sub j = .ok k ∧ k.contains (finite (x - y)) = true := by
  obtain ⟨below, above⟩ := contains_iff.1 inside
  obtain ⟨below', above'⟩ := contains_iff.1 inside'
  rw [sub_eq_add_neg]
  exact make?_contains (add_le_finite below (neg_le_finite above')) (finite_le_add above (finite_le_neg below'))

theorem square_le {a : Extended α} (positive : 0 ≤ a) (below : a ≤ finite x) : a * a ≤ finite (x * x) := by
  rcases le_finite_iff.1 below with rfl | ⟨l, rfl, le⟩
  · cases positive
  · exact mul_self_le_mul_self positive le

theorem le_square {a : Extended α} (positive : 0 ≤ x) (above : finite x ≤ a) : finite (x * x) ≤ a * a := by
  rcases finite_le_iff.1 above with rfl | ⟨u, rfl, le⟩
  · rfl
  · exact mul_self_le_mul_self positive le

theorem square_le_of_nonpos {a : Extended α} (negative : a ≤ 0) (above : finite x ≤ a) :
    a * a ≤ finite (x * x) := by
  rcases finite_le_iff.1 above with rfl | ⟨u, rfl, le⟩
  · cases negative
  · exact mul_self_le_of_nonpos le negative

theorem le_square_of_nonpos {a : Extended α} (negative : x ≤ 0) (below : a ≤ finite x) :
    finite (x * x) ≤ a * a := by
  rcases le_finite_iff.1 below with rfl | ⟨l, rfl, le⟩
  · rfl
  · exact mul_self_le_of_nonpos le negative

theorem square_contains (inside : i.contains (finite x) = true) :
    ∃ k, i.square = .ok k ∧ k.contains (finite (x * x)) = true := by
  obtain ⟨below, above⟩ := contains_iff.1 inside
  rw [square]
  split
  case isTrue positive =>
    have positive' : (0 : α) ≤ x := Extended.le_trans positive below
    exact make?_contains (square_le positive below) (le_square positive' above)
  case isFalse =>
    split
    case isTrue negative =>
      have negative' : x ≤ (0 : α) := Extended.le_trans above negative
      exact make?_contains (square_le_of_nonpos negative above) (le_square_of_nonpos negative' below)
    case isFalse =>
      refine make?_contains (mul_self_nonneg x) ?_
      have known : i.lower * i.lower ≠ nan := mul_self_known (known_of_le below).1
      have known' : i.upper * i.upper ≠ nan := mul_self_known (known_of_le above).2
      rcases le_total 0 x with positive | negative
      · exact Extended.le_trans (le_square positive above) ((le_larger known).2 known')
      · exact Extended.le_trans (le_square_of_nonpos negative below) (le_larger known).1

/-! ## Products -/

def IsEnd (i : Interval (Extended α)) (a : Extended α) : Prop := a = i.lower ∨ a = i.upper

def Reaches (i j : Interval (Extended α)) (v : Extended α) : Prop :=
  ∃ a b a' b', i.IsEnd a ∧ j.IsEnd b ∧ i.IsEnd a' ∧ j.IsEnd b' ∧ a * b ≤ v ∧ v ≤ a' * b'

theorem Reaches.comm {v : Extended α} (reaches : i.Reaches j v) : j.Reaches i v := by
  obtain ⟨a, b, a', b', isEnd, isEnd', isEnd₂, isEnd₂', below, above⟩ := reaches
  rw [Extended.mul_comm] at below above
  exact ⟨b, a, b', a', isEnd', isEnd, isEnd₂', isEnd₂, below, above⟩

theorem mul_contains {v : Extended α} (known : i.lower * j.lower ≠ nan) (reaches : i.Reaches j v) :
    ∃ k, i.mul j = .ok k ∧ k.contains v = true := by
  have corner {a b : Extended α} (isEnd : i.IsEnd a) (isEnd' : j.IsEnd b) : a * b ∈ i.lower * j.lower ::
      [i.lower * j.upper, i.upper * j.lower, i.upper * j.upper] := by
    rcases isEnd with rfl | rfl <;> rcases isEnd' with rfl | rfl <;> simp
  obtain ⟨a, b, a', b', isEnd, isEnd', isEnd₂, isEnd₂', below, above⟩ := reaches
  have least := smallest_le known (corner isEnd isEnd') (known_of_le below).1
  have greatest := le_largest known (corner isEnd₂ isEnd₂') (known_of_le above).2
  exact make?_contains (Extended.le_trans least below) (Extended.le_trans above greatest)

theorem reaches_zero (known : i.lower * j.lower ≠ nan) (zero : i.contains 0 = true)
    (inside' : j.contains (finite y) = true) : i.Reaches j 0 := by
  obtain ⟨below, above⟩ := contains_iff.1 zero
  obtain ⟨below', above'⟩ := contains_iff.1 inside'
  -- a finite end of `j` times the ends of `i` is on both sides of zero, an infinite one needs an end of `i` beside zero
  rcases le_finite_iff.1 below' with unbounded | ⟨l, bounded, -⟩
  · have nonzero : i.lower ≠ 0 := by
      intro vanishes
      rw [vanishes, unbounded] at known
      exact known scale_zero
    have beyond : 0 ≤ i.lower * j.lower := by
      rw [unbounded, mul_infinite_neg below nonzero]
      rfl
    by_cases vanishes : i.upper = 0
    · rcases finite_le_iff.1 above' with unbounded' | ⟨u, bounded', -⟩
      · refine ⟨_, _, _, _, .inl rfl, .inr rfl, .inl rfl, .inl rfl, ?_, beyond⟩
        rw [unbounded', mul_infinite_neg below nonzero]
        rfl
      · refine ⟨_, _, _, _, .inr rfl, .inr rfl, .inl rfl, .inl rfl, ?_, beyond⟩
        rw [vanishes, bounded', zero_mul_finite]
        exact le_refl (0 : α)
    · refine ⟨_, _, _, _, .inr rfl, .inl rfl, .inl rfl, .inl rfl, ?_, beyond⟩
      rw [unbounded, mul_infinite_pos above vanishes]
      rfl
  · rcases lt_trichotomy l 0 with negative | rfl | positive
    · refine ⟨_, _, _, _, .inr rfl, .inl rfl, .inl rfl, .inl rfl, ?_, ?_⟩
      · simpa only [bounded, zero_mul_finite] using mul_le_mul_neg negative above
      · simpa only [bounded, zero_mul_finite] using mul_le_mul_neg negative below
    · have vanishes : i.lower * j.lower = 0 := by
        rcases le_finite_iff.1 below with unbounded | ⟨l, bounded', -⟩
        · rw [unbounded, bounded] at known
          exact (known scale_zero).elim
        · rw [bounded', bounded, Extended.mul_comm]
          exact zero_mul_finite
      have reflexive : (0 : Extended α) ≤ 0 := le_refl (0 : α)
      exact ⟨_, _, _, _, .inl rfl, .inl rfl, .inl rfl, .inl rfl, vanishes ▸ reflexive, vanishes ▸ reflexive⟩
    · refine ⟨_, _, _, _, .inl rfl, .inl rfl, .inr rfl, .inl rfl, ?_, ?_⟩
      · simpa only [bounded, zero_mul_finite] using mul_le_mul_pos positive below
      · simpa only [bounded, zero_mul_finite] using mul_le_mul_pos positive above

theorem exists_ends (inside : i.contains (finite x) = true) (nonzero : y ≠ 0) :
    ∃ a a', i.IsEnd a ∧ i.IsEnd a' ∧ a * finite y ≤ finite (x * y) ∧ finite (x * y) ≤ a' * finite y := by
  obtain ⟨below, above⟩ := contains_iff.1 inside
  rcases nonzero.lt_or_gt with negative | positive
  · exact ⟨_, _, .inr rfl, .inl rfl, mul_le_mul_neg negative above, mul_le_mul_neg negative below⟩
  · exact ⟨_, _, .inl rfl, .inr rfl, mul_le_mul_pos positive below, mul_le_mul_pos positive above⟩

theorem exists_end_of_infinite (inside : i.contains (finite x) = true) (nonzero : x ≠ 0) (negative : Bool) :
    ∃ a, i.IsEnd a ∧ infinite negative * a = infinite negative * finite x := by
  obtain ⟨below, above⟩ := contains_iff.1 inside
  rcases nonzero.lt_or_gt with under | beyond
  · have sign : i.lower ≤ 0 := Extended.le_trans below under.le
    have nonzero : i.lower ≠ 0 := by
      intro zero
      rw [zero] at below
      exact absurd below (not_le.2 under)
    refine ⟨_, .inl rfl, ?_⟩
    rw [Extended.mul_comm, mul_infinite_neg sign nonzero, infinite_mul_finite, scale_neg under]
  · have sign : 0 ≤ i.upper := Extended.le_trans beyond.le above
    have nonzero : i.upper ≠ 0 := by
      intro zero
      rw [zero] at above
      exact absurd above (not_le.2 beyond)
    refine ⟨_, .inr rfl, ?_⟩
    rw [Extended.mul_comm, mul_infinite_pos sign nonzero, infinite_mul_finite, scale_pos beyond]

theorem contains_zero (inside : i.contains (finite x) = true) (isEnd : i.IsEnd 0) : i.contains 0 = true := by
  obtain ⟨below, above⟩ := contains_iff.1 inside
  have within : i.lower ≤ i.upper := Extended.le_trans below above
  rcases isEnd with zero | zero <;> rw [← zero] at within
  · exact contains_iff.2 ⟨zero ▸ le_refl (0 : α), within⟩
  · exact contains_iff.2 ⟨within, zero ▸ le_refl (0 : α)⟩

theorem reaches_end {a : Extended α} (isEnd : i.IsEnd a) (known : i.lower * j.lower ≠ nan)
    (inside : i.contains (finite x) = true) (inside' : j.contains (finite y) = true) (nonzero : y ≠ 0) :
    i.Reaches j (a * finite y) := by
  cases a with
  | nan =>
      obtain ⟨below, above⟩ := contains_iff.1 inside
      rcases isEnd with isEnd | isEnd
      · exact ((known_of_le below).1 isEnd.symm).elim
      · exact ((known_of_le above).2 isEnd.symm).elim
  | infinite negative =>
      obtain ⟨b, isEnd', same⟩ := exists_end_of_infinite inside' nonzero negative
      have reflexive : infinite negative * finite y ≤ infinite negative * finite y := by
        refine Extended.le_refl ?_
        rcases nonzero.lt_or_gt with under | beyond
        · simp [scale_neg under]
        · simp [scale_pos beyond]
      exact ⟨_, b, _, b, isEnd, isEnd', isEnd, isEnd', same ▸ reflexive, same ▸ reflexive⟩
  | finite z =>
      by_cases vanishes : z = 0
      · subst vanishes
        exact zero_mul_finite (y := y) ▸ reaches_zero known (contains_zero inside isEnd) inside'
      · obtain ⟨b, b', isEnd', isEnd₂, least, greatest⟩ := exists_ends inside' vanishes
        rw [← finite_mul_finite, Extended.mul_comm b, Extended.mul_comm (finite y)] at least
        rw [← finite_mul_finite, Extended.mul_comm b', Extended.mul_comm (finite y)] at greatest
        exact ⟨_, b, _, b', isEnd, isEnd', isEnd, isEnd₂, least, greatest⟩

theorem reaches_mul (known : i.lower * j.lower ≠ nan) (inside : i.contains (finite x) = true)
    (inside' : j.contains (finite y) = true) : i.Reaches j (finite (x * y)) := by
  by_cases zero : y = 0
  · rw [zero] at inside'
    rw [zero, mul_zero]
    rw [Extended.mul_comm] at known
    exact (reaches_zero known inside' inside).comm
  · obtain ⟨a, a', isEnd, isEnd', below, above⟩ := exists_ends inside zero
    obtain ⟨b, c, -, -, first, second, -, -, least, -⟩ := reaches_end isEnd known inside inside' zero
    obtain ⟨-, -, b', c', -, -, first', second', -, greatest⟩ := reaches_end isEnd' known inside inside' zero
    exact ⟨b, c, b', c', first, second, first', second', Extended.le_trans least below,
      Extended.le_trans above greatest⟩

def Lost (i j : Interval (Extended α)) : Prop :=
  i.lower = 0 ∧ j.lower = infinite true ∨ i.lower = infinite true ∧ j.lower = 0

theorem mul_eq_nan_iff (inside : i.contains (finite x) = true) (inside' : j.contains (finite y) = true) :
    i.lower * j.lower = nan ↔ i.Lost j := by
  obtain ⟨below, -⟩ := contains_iff.1 inside
  obtain ⟨below', -⟩ := contains_iff.1 inside'
  have zero (z : α) : (finite z : Extended α) = 0 ↔ z = 0 := by
    rw [show (0 : Extended α) = finite 0 from rfl, finite.injEq]
  rcases le_finite_iff.1 below with first | ⟨l, first, -⟩ <;>
    rcases le_finite_iff.1 below' with second | ⟨l', second, -⟩ <;> rw [Lost, first, second] <;>
    simp [zero, scale_eq_nan_iff]

theorem mul_of_nan (lost : i.lower * j.lower = nan) : i.mul j = .ok ⟨nan, nan⟩ := by
  have folded : i.mul j = make?
      ([i.lower * j.upper, i.upper * j.lower, i.upper * j.upper].foldl Scalar.smaller (i.lower * j.lower))
      ([i.lower * j.upper, i.upper * j.lower, i.upper * j.upper].foldl Scalar.larger (i.lower * j.lower)) := rfl
  rw [folded, lost, smallest_nan, largest_nan, make?, if_neg fun empty => not_nan_le empty.1]

/-- Of intervals with infinite ends, sums, differences and squares hold all results. Products do unless one lower
end is zero and the other one infinite. -/
theorem contains_results (inside : i.contains (finite x) = true) (inside' : j.contains (finite y) = true) :
    (∃ k, i.add j = .ok k ∧ k.contains (finite (x + y)) = true) ∧
    (∃ k, i.sub j = .ok k ∧ k.contains (finite (x - y)) = true) ∧
    (∃ k, i.square = .ok k ∧ k.contains (finite (x * x)) = true) ∧
    ∃ k, i.mul j = .ok k ∧ (k.contains (finite (x * y)) = true ↔ ¬i.Lost j) ∧ (i.Lost j → k = ⟨nan, nan⟩) := by
  refine ⟨add_contains inside inside', sub_contains inside inside', square_contains inside, ?_⟩
  rw [← mul_eq_nan_iff inside inside']
  by_cases lost : i.lower * j.lower = nan
  · refine ⟨_, mul_of_nan lost, ⟨fun holds => ?_, fun known => absurd lost known⟩, fun _ => rfl⟩
    exact absurd (contains_iff.1 holds).1 not_nan_le
  · obtain ⟨k, multiplied, holds⟩ := mul_contains lost (reaches_mul lost inside inside')
    exact ⟨k, multiplied, iff_of_true holds lost, fun contrary => absurd contrary lost⟩

def whole : Interval (Extended ℚ) := ⟨infinite true, infinite false⟩

theorem whole_contains_results : ∃ k, (⟨finite (-1), finite 1⟩ : Interval (Extended ℚ)).mul whole = .ok k ∧
    k.contains (finite (1 * 3)) = true := by
  have inside : (⟨finite (-1), finite 1⟩ : Interval (Extended ℚ)).contains (finite 1) = true := by decide +kernel
  have inside' : whole.contains (finite 3) = true := by decide +kernel
  obtain ⟨-, -, -, k, multiplied, holds, -⟩ := contains_results inside inside'
  refine ⟨k, multiplied, holds.2 ?_⟩
  rintro (⟨zero, -⟩ | ⟨unbounded, -⟩)
  · exact absurd (finite.inj zero) (by decide +kernel)
  · cases unbounded

/-- The product of the unit interval with all numbers holds no number. -/
theorem whole_loses_products : make? (finite 0) (finite 1) = .ok (⟨finite 0, finite 1⟩ : Interval (Extended ℚ)) ∧
    make? (infinite true) (infinite false) = .ok whole ∧
    (⟨finite 0, finite 1⟩ : Interval (Extended ℚ)).contains (finite 1) = true ∧ whole.contains (finite 1) = true ∧
    ∃ k, (⟨finite 0, finite 1⟩ : Interval (Extended ℚ)).mul whole = .ok k ∧
      k.contains (finite 1 * finite 1) = false := by
  have lost : (finite 0 * infinite true : Extended ℚ) = nan := finite_mul_infinite.trans scale_zero
  exact ⟨rfl, rfl, by decide +kernel, by decide +kernel, ⟨nan, nan⟩, mul_of_nan lost, by decide +kernel⟩

example : (match Interval.mul (⟨0, 1⟩ : Interval Float) ⟨-1 / 0, 1 / 0⟩ with
    | .ok k => k.contains 1
    | .error _ => true) = false := by decide +kernel

end Descent.Interval
