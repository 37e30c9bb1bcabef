import Mathlib
import Descent.Objective.Evaluate

namespace Descent

namespace Quotient

def value (v : Quotient) : ℚ := v.num / v.den

theorem value_scaled (n : Nat) {base : Nat} (positive : 0 < base) (exponent : Int) :
    (scaled n base exponent).value = n * (base : ℚ) ^ exponent := by
  have nonzero : (base : ℚ) ≠ 0 := by positivity
  unfold scaled value
  split
  · rename_i sign
    lift exponent to Nat using sign
    simp
  · rename_i sign
    obtain ⟨k, rfl⟩ : ∃ k : Nat, exponent = -k := ⟨exponent.natAbs, by omega⟩
    simp [div_eq_mul_inv]

theorem value_scale (v : Quotient) {base : Nat} (positive : 0 < base) (exponent : Int) :
    (v.scale base exponent).value = v.value * (base : ℚ) ^ exponent := by
  have nonzero : (base : ℚ) ≠ 0 := by positivity
  unfold scale value
  split
  · rename_i sign
    lift exponent to Nat using sign
    simp [div_mul_eq_mul_div]
  · rename_i sign
    obtain ⟨k, rfl⟩ : ∃ k : Nat, exponent = -k := ⟨exponent.natAbs, by omega⟩
    simp [div_eq_mul_inv, mul_comm, mul_left_comm]

theorem den_scaled_pos (n : Nat) {base : Nat} (positive : 0 < base) (exponent : Int) :
    0 < (scaled n base exponent).den := by
  unfold scaled
  split
  · exact Nat.one_pos
  · exact Nat.pow_pos positive

theorem den_scale_pos {v : Quotient} (den : 0 < v.den) {base : Nat} (positive : 0 < base)
    (exponent : Int) : 0 < (v.scale base exponent).den := by
  unfold scale
  split
  · exact den
  · exact Nat.mul_pos den (Nat.pow_pos positive)

theorem floor_le_round (v : Quotient) : v.floor ≤ v.round := by
  simp only [floor, round]
  split <;> omega

theorem round_le_floor_succ (v : Quotient) : v.round ≤ v.floor + 1 := by
  simp only [floor, round]
  split <;> omega

theorem round_mono {v w : Quotient} (den : v.den = w.den) (num : v.num ≤ w.num) :
    v.round ≤ w.round := by
  have below := Nat.div_add_mod v.num v.den
  have above := Nat.div_add_mod w.num w.den
  have order : v.num / v.den ≤ w.num / w.den := den ▸ Nat.div_le_div_right num
  simp only [round]
  rcases Nat.lt_or_eq_of_le order with less | equal
  · split <;> split <;> omega
  · rw [den] at below equal ⊢
    rw [equal] at below ⊢
    split <;> split <;> omega

theorem two_zpow {e f g : Int} (sum : e + f = g) : (2 : ℚ) ^ e * 2 ^ f = 2 ^ g := by
  rw [← zpow_add₀ two_ne_zero, sum]

theorem guess_spec {v : Quotient} (num : 0 < v.num) (den : 0 < v.den) {guess : Int}
    (difference : guess = (Nat.log2 v.num : Int) - Nat.log2 v.den) :
    (2 : ℚ) ^ (guess - 1) ≤ v.value ∧ v.value < (2 : ℚ) ^ (guess + 1) := by
  have denPos : (0 : ℚ) < v.den := by exact_mod_cast den
  have numLow : (2 : ℚ) ^ (Nat.log2 v.num : Int) ≤ v.num := by
    exact_mod_cast Nat.log2_self_le num.ne'
  have numHigh : (v.num : ℚ) < 2 ^ ((Nat.log2 v.num : Int) + 1) := by exact_mod_cast Nat.lt_log2_self
  have denLow : (2 : ℚ) ^ (Nat.log2 v.den : Int) ≤ v.den := by
    exact_mod_cast Nat.log2_self_le den.ne'
  have denHigh : (v.den : ℚ) < 2 ^ ((Nat.log2 v.den : Int) + 1) := by exact_mod_cast Nat.lt_log2_self
  rw [value, le_div_iff₀ denPos, div_lt_iff₀ denPos]
  constructor
  · calc
      (2 : ℚ) ^ (guess - 1) * v.den ≤ 2 ^ (guess - 1) * 2 ^ ((Nat.log2 v.den : Int) + 1) := by gcongr
      _ = 2 ^ (Nat.log2 v.num : Int) := two_zpow (by omega)
      _ ≤ v.num := numLow
  · calc
      (v.num : ℚ) < 2 ^ ((Nat.log2 v.num : Int) + 1) := numHigh
      _ = 2 ^ (guess + 1) * 2 ^ (Nat.log2 v.den : Int) := (two_zpow (by omega)).symm
      _ ≤ 2 ^ (guess + 1) * v.den := by gcongr

theorem exponent_spec {v : Quotient} (num : 0 < v.num) (den : 0 < v.den) :
    (2 : ℚ) ^ v.exponent ≤ v.value ∧ v.value < (2 : ℚ) ^ (v.exponent + 1) := by
  have denPos : (0 : ℚ) < v.den := by exact_mod_cast den
  set guess : Int := (Nat.log2 v.num : Int) - Nat.log2 v.den with guess_eq
  obtain ⟨low, high⟩ := guess_spec num den guess_eq
  -- the comparison of natural numbers is that of the quotient with the power that is guessed
  have decides : v.num * (scaled 1 2 guess).den < v.den * (scaled 1 2 guess).num ↔
      v.value < (2 : ℚ) ^ guess := by
    have power := value_scaled 1 two_pos guess
    have powerPos : (0 : ℚ) < (scaled 1 2 guess).den := by
      exact_mod_cast den_scaled_pos 1 two_pos guess
    rw [show (2 : ℚ) ^ guess = (scaled 1 2 guess).value by simp [power], value, value,
      div_lt_div_iff₀ denPos powerPos, mul_comm ((scaled 1 2 guess).num : ℚ)]
    exact_mod_cast Iff.rfl
  simp only [exponent, ← guess_eq, decides]
  split
  · rename_i less
    exact ⟨low, by simpa using less⟩
  · rename_i more
    exact ⟨not_lt.1 more, high⟩

theorem exponent_mono {v w : Quotient} (num : 0 < v.num) (den : 0 < v.den) (num' : 0 < w.num)
    (den' : 0 < w.den) (order : v.value ≤ w.value) : v.exponent ≤ w.exponent := by
  have less : (2 : ℚ) ^ v.exponent < 2 ^ (w.exponent + 1) :=
    (exponent_spec num den).1.trans_lt (order.trans_lt (exponent_spec num' den').2)
  have := (zpow_lt_zpow_iff_right₀ one_lt_two).1 less
  omega

def significand (v : Quotient) : Nat := (v.scale 2 (-(v.exponent - 52))).round

theorem significand_spec {v : Quotient} (num : 0 < v.num) (den : 0 < v.den) :
    2 ^ 52 ≤ v.significand ∧ v.significand ≤ 2 ^ 53 := by
  obtain ⟨low, high⟩ := exponent_spec num den
  have scaledDen := den_scale_pos den two_pos (-(v.exponent - 52))
  have scaledValue := value_scale v two_pos (-(v.exponent - 52))
  have scaledDenPos : (0 : ℚ) < (v.scale 2 (-(v.exponent - 52))).den := by exact_mod_cast scaledDen
  constructor
  · refine le_trans ?_ (floor_le_round _)
    have bound : (2 : ℚ) ^ (52 : Int) ≤ (v.scale 2 (-(v.exponent - 52))).value := by
      calc
        (2 : ℚ) ^ (52 : Int) = 2 ^ v.exponent * 2 ^ (-(v.exponent - 52)) :=
          (two_zpow (by omega)).symm
        _ ≤ v.value * 2 ^ (-(v.exponent - 52)) := by gcongr
        _ = _ := scaledValue.symm
    rw [value, le_div_iff₀ scaledDenPos] at bound
    rw [floor, Nat.le_div_iff_mul_le scaledDen]
    exact_mod_cast bound
  · refine (round_le_floor_succ _).trans ?_
    have bound : (v.scale 2 (-(v.exponent - 52))).value < (2 : ℚ) ^ (53 : Int) := by
      calc
        _ = v.value * (2 : ℚ) ^ (-(v.exponent - 52)) := scaledValue
        _ < 2 ^ (v.exponent + 1) * 2 ^ (-(v.exponent - 52)) := by gcongr
        _ = 2 ^ (53 : Int) := two_zpow (by omega)
    rw [value, div_lt_iff₀ scaledDenPos] at bound
    rw [Nat.succ_le_iff, floor, Nat.div_lt_iff_lt_mul scaledDen]
    exact_mod_cast bound

theorem value_toBinary {v : Quotient} (num : 0 < v.num) :
    v.toBinary.value = v.significand * (2 : ℚ) ^ (v.exponent - 52) := by
  simp only [toBinary, num.ne', ↓reduceIte, significand]
  exact value_scaled _ two_pos _

theorem toBinary_spec {v : Quotient} (num : 0 < v.num) (den : 0 < v.den) :
    (2 : ℚ) ^ v.exponent ≤ v.toBinary.value ∧ v.toBinary.value ≤ (2 : ℚ) ^ (v.exponent + 1) := by
  obtain ⟨low, high⟩ := significand_spec num den
  have atLeast : (2 : ℚ) ^ (52 : Int) ≤ v.significand := by exact_mod_cast low
  have atMost : (v.significand : ℚ) ≤ 2 ^ (53 : Int) := by exact_mod_cast high
  rw [value_toBinary num]
  constructor
  · calc
      (2 : ℚ) ^ v.exponent = 2 ^ (52 : Int) * 2 ^ (v.exponent - 52) := (two_zpow (by omega)).symm
      _ ≤ v.significand * 2 ^ (v.exponent - 52) := by gcongr
  · calc
      (v.significand : ℚ) * 2 ^ (v.exponent - 52) ≤ 2 ^ (53 : Int) * 2 ^ (v.exponent - 52) := by gcongr
      _ = 2 ^ (v.exponent + 1) := two_zpow (by omega)

theorem den_toBinary_pos {v : Quotient} (den : 0 < v.den) : 0 < v.toBinary.den := by
  unfold toBinary
  split
  · exact den
  · exact den_scaled_pos _ two_pos _

theorem toBinary_mono {v w : Quotient} (den : v.den = w.den) (positive : 0 < w.den)
    (num : v.num ≤ w.num) : v.toBinary.value ≤ w.toBinary.value := by
  rcases Nat.eq_zero_or_pos v.num with zero | num_pos
  · have : v.toBinary.value = 0 := by simp [toBinary, zero, value]
    rw [this]
    exact div_nonneg (Nat.cast_nonneg _) (Nat.cast_nonneg _)
  · have num_pos' : 0 < w.num := num_pos.trans_le num
    have order : v.value ≤ w.value := by
      rw [value, value, den]
      gcongr
    -- with different exponents a power of two lies between them, with the same one the significands decide
    rcases (exponent_mono num_pos (den ▸ positive) num_pos' positive order).lt_or_eq with
      less | equal
    · calc
        v.toBinary.value ≤ 2 ^ (v.exponent + 1) := (toBinary_spec num_pos (den ▸ positive)).2
        _ ≤ 2 ^ w.exponent := zpow_le_zpow_right₀ one_le_two (by omega)
        _ ≤ w.toBinary.value := (toBinary_spec num_pos' positive).1
    · have rounded : v.significand ≤ w.significand := by
        unfold significand
        rw [equal]
        unfold scale
        split
        · exact round_mono den (Nat.mul_le_mul_right _ num)
        · exact round_mono (by simp [den]) num
      rw [value_toBinary num_pos, value_toBinary num_pos', equal]
      gcongr

theorem floor_eq (v : Quotient) : v.floor = ⌊v.value⌋₊ := (Nat.floor_div_eq_div v.num v.den).symm

theorem floor_mono {v w : Quotient} (order : v.value ≤ w.value) : v.floor ≤ w.floor := by
  rw [floor_eq, floor_eq]
  exact Nat.floor_le_floor order

end Quotient

namespace Partition

theorem interiorBound_mono {terms workers : Nat} (positive : 0 < workers) {k l : Nat} (order : k ≤ l) :
    interiorBound terms workers k ≤ interiorBound terms workers l := by
  have den : 0 < (Quotient.mk terms workers).toBinary.den := Quotient.den_toBinary_pos positive
  exact Quotient.floor_mono (Quotient.toBinary_mono rfl den (Nat.mul_le_mul_right _ order))

theorem bound_zero {workers : Nat} (positive : 0 < workers) (terms : Nat) :
    bound terms workers 0 = 0 := by
  simp [bound, positive.ne, interiorBound, Quotient.toBinary, Quotient.floor]

def Covers (terms : Nat) : (first : Nat) → List (Nat × Nat) → Prop
  | first, [] => terms ≤ first
  | first, chunk :: rest =>
      chunk.1 = first ∧ (first ≤ chunk.2 ∨ terms ≤ chunk.2) ∧ Covers terms chunk.2 rest

theorem covers_chunks {workers : Nat} (positive : 0 < workers) (terms : Nat) :
    Covers terms 0 (chunks terms workers) := by
  suffices general : ∀ count first, first + count = workers →
      Covers terms (bound terms workers first) ((List.range' first count).map fun k =>
        (bound terms workers k, bound terms workers (k + 1))) by
    have all := general workers 0 (Nat.zero_add _)
    rwa [bound_zero positive, ← List.range_eq_range'] at all
  intro count
  induction count with
  | zero =>
      intro first last
      simp [Covers, bound, ← last]
  | succ count ih =>
      intro first last
      refine ⟨rfl, ?_, ih (first + 1) (by omega)⟩
      by_cases final : first + 1 = workers
      · simp [bound, final]
      · left
        simp only [bound, final, show first ≠ workers by omega, ↓reduceIte]
        exact interiorBound_mono positive (Nat.le_succ _)

end Partition

namespace Registry

variable {β : Type}

theorem mem_of_mem_slice {l : List β} {chunk : Nat × Nat} {b : β} (member : b ∈ slice l chunk) :
    b ∈ l :=
  List.mem_of_mem_drop (List.mem_of_mem_take member)

theorem take_append_slice (l : List β) {chunk : Nat × Nat}
    (order : chunk.1 ≤ chunk.2 ∨ l.length ≤ chunk.2) :
    l.take chunk.1 ++ slice l chunk = l.take chunk.2 := by
  by_cases inside : chunk.1 ≤ chunk.2
  · rw [slice, ← List.take_add, Nat.add_sub_cancel' inside]
  · have reached : l.length ≤ chunk.2 := by omega
    rw [slice, Nat.sub_eq_zero_of_le (by omega), List.take_zero, List.append_nil,
      List.take_of_length_le (by omega), List.take_of_length_le reached]

theorem flatMap_slice (l : List β) {first : Nat} {chunks : List (Nat × Nat)}
    (covers : Partition.Covers l.length first chunks) : chunks.flatMap (slice l) = l.drop first := by
  induction chunks generalizing first with
  | nil => exact (List.drop_of_length_le covers).symm
  | cons chunk rest ih =>
      obtain ⟨rfl, order, covers⟩ := covers
      rw [List.flatMap_cons, ih covers]
      have whole : l.take chunk.1 ++ (slice l chunk ++ l.drop chunk.2) = l := by
        rw [← List.append_assoc, take_append_slice l order, List.take_append_drop]
      exact List.append_cancel_left (whole.trans (List.take_append_drop chunk.1 l).symm)

theorem flatMap_chunks {α : Type} (r : Registry α) : r.chunks.flatMap (slice r.terms) = r.terms :=
  flatMap_slice r.terms (Partition.covers_chunks (Nat.le_max_left 1 _) r.terms.length)

end Registry

end Descent
