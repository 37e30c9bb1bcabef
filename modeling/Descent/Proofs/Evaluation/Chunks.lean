import Mathlib
import Descent.Proofs.Evaluation.Rounding

namespace Descent

theorem floor_le_floor_succ {a b : ℚ} (nonneg : 0 ≤ b) (near : a < b + 1) : ⌊a⌋₊ ≤ ⌊b⌋₊ + 1 := by
  rw [← Nat.floor_add_one nonneg]
  exact Nat.floor_le_floor near.le

namespace Partition

variable {terms count k : Nat}

def spacing (terms count : Nat) : Quotient := (Quotient.mk terms count).toBinary

def roundedBound (terms count k : Nat) : Quotient :=
  (Quotient.mk (k * (spacing terms count).num) (spacing terms count).den).toBinary

theorem value_multiple (v : Quotient) : (Quotient.mk (k * v.num) v.den).value = k * v.value := by
  simp only [Quotient.value, Nat.cast_mul, mul_div_assoc]

section

variable (positive : 0 < count)

include positive

theorem rounds_spacing : RoundsTo (terms / count) (spacing terms count).value :=
  Quotient.rounds_toBinary (v := ⟨terms, count⟩) positive

theorem rounds_roundedBound : RoundsTo (k * (spacing terms count).value) (roundedBound terms count k).value := by
  rw [← value_multiple]
  exact Quotient.rounds_toBinary (Quotient.den_toBinary_pos positive)

theorem abs_roundedBound_sub_le :
    |(roundedBound terms count k).value - k * (terms / count : ℚ)| ≤ k * (terms / count : ℚ) / 2 ^ 51 := by
  have first : |(spacing terms count).value - terms / count| ≤ terms / count / 2 ^ 53 :=
    Quotient.abs_toBinary_sub_le (v := ⟨terms, count⟩) positive
  have second : |(roundedBound terms count k).value - k * (spacing terms count).value| ≤
      k * (spacing terms count).value / 2 ^ 53 := by
    rw [← value_multiple]
    exact Quotient.abs_toBinary_sub_le (Quotient.den_toBinary_pos positive)
  have nonneg : (0 : ℚ) ≤ k * (terms / count) := by positivity
  have scaled : |k * (spacing terms count).value - k * (terms / count : ℚ)| ≤ k * (terms / count : ℚ) / 2 ^ 53 := by
    rw [← mul_sub, abs_mul, Nat.abs_cast, mul_div_assoc]
    gcongr
  have size := (abs_le.1 scaled).2
  calc
    |(roundedBound terms count k).value - k * (terms / count : ℚ)|
        ≤ |(roundedBound terms count k).value - k * (spacing terms count).value| +
            |k * (spacing terms count).value - k * (terms / count : ℚ)| := abs_sub_le _ _ _
    _ ≤ k * (spacing terms count).value / 2 ^ 53 + k * (terms / count : ℚ) / 2 ^ 53 := add_le_add second scaled
    _ ≤ k * (terms / count : ℚ) / 2 ^ 51 := by linarith

end

section

variable (few : terms < 2 ^ 50) (positive : 0 < count) (inside : k ≤ count)

include positive inside in
theorem spaced_le : k * (terms / count : ℚ) ≤ terms := by
  have size : (0 : ℚ) < count := by exact_mod_cast positive
  have most : (k : ℚ) ≤ count := by exact_mod_cast inside
  calc
    k * (terms / count : ℚ) ≤ count * (terms / count : ℚ) := by gcongr
    _ = terms := mul_div_cancel₀ _ size.ne'

include few positive inside in
theorem abs_roundedBound_sub_lt : |(roundedBound terms count k).value - k * (terms / count : ℚ)| < 1 / 2 := by
  have below : (terms : ℚ) < 2 ^ 50 := by exact_mod_cast few
  have most := @spaced_le terms _ _ positive inside
  calc
    |(roundedBound terms count k).value - k * (terms / count : ℚ)| ≤ k * (terms / count : ℚ) / 2 ^ 51 :=
      abs_roundedBound_sub_le positive
    _ < 1 / 2 := by linarith

theorem interiorBound_eq : interiorBound terms count k = ⌊(roundedBound terms count k).value⌋₊ :=
  Quotient.floor_eq _

theorem spaced_eq : k * terms / count = ⌊k * (terms / count : ℚ)⌋₊ := by
  rw [← mul_div_assoc, ← Nat.cast_mul, Nat.floor_div_eq_div]

include few positive inside

theorem interiorBound_le : interiorBound terms count k ≤ terms := by
  have near := (abs_lt.1 (abs_roundedBound_sub_lt few positive inside)).2
  have most := @spaced_le terms _ _ positive inside
  rw [interiorBound_eq, ← Nat.lt_succ_iff, Nat.floor_lt (Quotient.value_nonneg _), Nat.cast_succ]
  linarith

theorem bound_near :
    bound terms count k ≤ k * terms / count + 1 ∧ k * terms / count ≤ bound terms count k + 1 := by
  by_cases last : k = count
  · have whole : k * terms / count = terms := by rw [last, Nat.mul_div_cancel_left _ positive]
    rw [bound, if_pos last, whole]
    exact ⟨Nat.le_succ _, Nat.le_succ _⟩
  · obtain ⟨above, below⟩ := abs_lt.1 (abs_roundedBound_sub_lt few positive inside)
    rw [bound, if_neg last, interiorBound_eq, spaced_eq]
    exact ⟨floor_le_floor_succ (by positivity) (by linarith),
      floor_le_floor_succ (Quotient.value_nonneg _) (by linarith)⟩

end

theorem bound_last : bound terms count count = terms := if_pos rfl

theorem bound_le_succ (few : terms < 2 ^ 50) (inside : k < count) :
    bound terms count k ≤ bound terms count (k + 1) := by
  have positive : 0 < count := Nat.zero_lt_of_lt inside
  by_cases last : k + 1 = count
  · rw [bound, if_neg inside.ne, bound, if_pos last]
    exact interiorBound_le few positive inside.le
  · rw [bound, if_neg inside.ne, bound, if_neg last]
    exact interiorBound_mono positive (Nat.le_succ k)

def places (chunk : Nat × Nat) : List Nat := List.range' chunk.1 (chunk.2 - chunk.1)

theorem flatMap_places (b : Nat → Nat) {count : Nat} (ordered : ∀ k < count, b k ≤ b (k + 1)) :
    b 0 ≤ b count ∧ ((List.range count).map fun k => (b k, b (k + 1))).flatMap places = places (b 0, b count) := by
  induction count with
  | zero => simp [places]
  | succ count ih =>
      obtain ⟨before, together⟩ := ih fun k inside => ordered k (Nat.lt_succ_of_lt inside)
      have next := ordered count (Nat.lt_succ_self count)
      refine ⟨before.trans next, ?_⟩
      rw [List.range_succ, List.map_append, List.flatMap_append, together, List.map_singleton, List.flatMap_singleton,
        places, places, places]
      have follows : b count = b 0 + (b count - b 0) := (Nat.add_sub_cancel' before).symm
      have length : b count - b 0 + (b (count + 1) - b count) = b (count + 1) - b 0 := by omega
      rw [← length, ← List.range'_append_1, ← follows]

/-- The bounds of the chunks are correctly rounded and cut to whole numbers, but for the last one. The chunks of fewer
than `2 ^ 50` terms, taken in the order of the workers, list each term once and in order, and each bound is next to
the equally spaced one. -/
theorem chunks_partition {terms : Nat} (few : terms < 2 ^ 50) (threads : Nat) :
    let count := workers threads terms
    (chunks terms count).length = count ∧
    bound terms count 0 = 0 ∧ (∀ k < count, bound terms count k ≤ bound terms count (k + 1)) ∧
    bound terms count count = terms ∧
    (∀ k < count, ∃ step product : ℚ, RoundsTo (terms / count) step ∧ RoundsTo (k * step) product ∧
      bound terms count k = ⌊product⌋₊) ∧
    (chunks terms count).flatMap places = List.range terms ∧
    (∀ {β : Type} (l : List β), l.length = terms → (chunks terms count).flatMap (Registry.slice l) = l) ∧
    ∀ k ≤ count, bound terms count k ≤ k * terms / count + 1 ∧ k * terms / count ≤ bound terms count k + 1 := by
  intro count
  have positive : 0 < count := Nat.lt_of_lt_of_le Nat.one_pos (Nat.le_max_left 1 _)
  have ordered (k : Nat) (inside : k < count) : bound terms count k ≤ bound terms count (k + 1) :=
    bound_le_succ few inside
  refine ⟨length_chunks terms count, bound_zero positive terms, ordered, bound_last, ?_, ?_, ?_, ?_⟩
  · intro k inside
    refine ⟨_, _, rounds_spacing positive, rounds_roundedBound positive, ?_⟩
    rw [bound, if_neg inside.ne, interiorBound_eq]
  · have together := (flatMap_places (bound terms count) ordered).2
    rw [bound_zero positive, bound_last, places, Nat.sub_zero, ← List.range_eq_range'] at together
    exact together
  · intro β l size
    have covers := covers_chunks positive terms
    rw [← size] at covers ⊢
    exact Registry.flatMap_slice l covers
  · exact fun k inside => bound_near few positive inside

theorem thirty_partitioned :
    (30 : Nat) < 2 ^ 50 ∧ workers 22 30 = 22 ∧ bound 30 22 11 = 14 ∧ 11 * 30 / 22 = 15 ∧
      (chunks 30 22).flatMap places = List.range 30 := by
  have few : (30 : Nat) < 2 ^ 50 := by decide
  obtain ⟨-, -, -, -, -, listed, -⟩ := chunks_partition few 22
  exact ⟨few, by decide, by decide +kernel, by decide, listed⟩

end Partition

end Descent
