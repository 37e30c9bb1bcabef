import Mathlib
import Descent.Proofs.Evaluation.Partition

namespace Descent

def Binary (y : ℚ) : Prop := ∃ (m : Nat) (e : Int), m < 2 ^ 53 ∧ y = m * (2 : ℚ) ^ e

/-- The number `y` is `x` rounded to 53 bits: no such number is nearer to `x`, and if another one is just as near,
the significand of `y` is even. -/
structure RoundsTo (x y : ℚ) : Prop where
  binary : Binary y
  nearest : ∀ z, Binary z → |y - x| ≤ |z - x|
  even : ∀ z, Binary z → |z - x| = |y - x| →
    z = y ∨ ∃ (m : Nat) (e : Int), Even m ∧ 2 ^ 52 ≤ m ∧ m < 2 ^ 53 ∧ y = m * (2 : ℚ) ^ e

namespace Quotient

variable {v : Quotient}

theorem value_nonneg (v : Quotient) : 0 ≤ v.value := div_nonneg (Nat.cast_nonneg _) (Nat.cast_nonneg _)

section

variable (den : 0 < v.den)

include den

theorem round_spec : |(v.round : ℚ) - v.value| ≤ 1 / 2 ∧ (|(v.round : ℚ) - v.value| = 1 / 2 → Even v.round) := by
  have positive : (0 : ℚ) < v.den := by exact_mod_cast den
  have less : v.num % v.den < v.den := Nat.mod_lt _ den
  have parts : v.value = (v.num / v.den : ℕ) + (v.num % v.den : ℕ) / (v.den : ℚ) := by
    rw [value, eq_comm, add_div' _ _ _ positive.ne', ← Nat.cast_mul, ← Nat.cast_add, Nat.div_add_mod']
  rw [parts, round]
  generalize v.num % v.den = rest at less ⊢
  generalize v.num / v.den = below
  have least : (0 : ℚ) ≤ rest / v.den := by positivity
  have most : (rest : ℚ) / v.den ≤ 1 := (div_le_one positive).2 (by exact_mod_cast less.le)
  have half : (rest : ℚ) / v.den = 1 / 2 → 2 * rest = v.den := by
    intro same
    rw [div_eq_iff positive.ne'] at same
    exact_mod_cast (by linarith : (2 * rest : ℚ) = v.den)
  split
  · rename_i down
    have away : |(below : ℚ) - (below + rest / v.den)| = rest / v.den := by
      rw [sub_add_cancel_left, abs_neg, abs_of_nonneg least]
    rw [away]
    constructor
    · have small : (2 * rest : ℚ) ≤ v.den := by exact_mod_cast (by omega : 2 * rest ≤ v.den)
      rw [div_le_iff₀ positive]
      linarith
    · intro same
      have tie := half same
      exact Nat.even_iff.2 (by omega)
  · rename_i up
    have away : |((below + 1 : ℕ) : ℚ) - (below + rest / v.den)| = 1 - rest / v.den := by
      rw [Nat.cast_succ, add_sub_add_left_eq_sub, abs_of_nonneg (sub_nonneg.2 most)]
    rw [away]
    constructor
    · have large : (v.den : ℚ) ≤ 2 * rest := by exact_mod_cast (by omega : v.den ≤ 2 * rest)
      have : 1 / 2 ≤ (rest : ℚ) / v.den := by
        rw [le_div_iff₀ positive]
        linarith
      linarith
    · intro same
      have tie := half (by linarith)
      exact Nat.even_iff.2 (by omega)

theorem round_nearest (m : Nat) : |(v.round : ℚ) - v.value| ≤ |m - v.value| ∧
    (|m - v.value| = |(v.round : ℚ) - v.value| → m = v.round ∨ Even v.round) := by
  obtain ⟨near, tie⟩ := round_spec den
  by_cases same : m = v.round
  · rw [same]
    exact ⟨le_rfl, fun _ => .inl rfl⟩
  · have apart : (1 : ℚ) ≤ |(m : ℚ) - v.round| := by
      have different : (m : ℤ) - v.round ≠ 0 := by omega
      exact_mod_cast Int.one_le_abs different
    have far : 1 / 2 ≤ |m - v.value| := by
      have around := abs_sub_le (m : ℚ) v.value v.round
      rw [abs_sub_comm v.value] at around
      linarith
    exact ⟨near.trans far, fun equal => .inr (tie (near.antisymm (equal ▸ far)))⟩

end

section

variable (num : 0 < v.num) (den : 0 < v.den)

def inPlaces (v : Quotient) : ℚ := (v.scale 2 (-(v.exponent - 52))).value

def place (v : Quotient) : ℚ := 2 ^ (v.exponent - 52)

theorem place_pos (v : Quotient) : 0 < v.place := zpow_pos two_pos _

theorem inPlaces_mul_place (v : Quotient) : v.inPlaces * v.place = v.value := by
  rw [inPlaces, place, value_scale v two_pos, mul_assoc, Nat.cast_ofNat, two_zpow (neg_add_cancel (v.exponent - 52)),
    zpow_zero, mul_one]

theorem abs_mul_place_sub (m : ℚ) : |m * v.place - v.value| = |m - v.inPlaces| * v.place := by
  rw [← inPlaces_mul_place, ← sub_mul, abs_mul, abs_of_pos v.place_pos]

include num den

theorem exists_normal : ∃ (m : Nat) (e : Int), 2 ^ 52 ≤ m ∧ m < 2 ^ 53 ∧
    v.toBinary.value = m * (2 : ℚ) ^ e ∧ (Even v.significand → Even m) := by
  obtain ⟨low, high⟩ := significand_spec num den
  rcases high.lt_or_eq with narrow | carried
  · exact ⟨v.significand, v.exponent - 52, low, narrow, value_toBinary num, id⟩
  · refine ⟨2 ^ 52, v.exponent - 51, le_rfl, by decide, ?_, fun _ => by decide⟩
    rw [value_toBinary num, carried]
    have twice : (2 : ℚ) ^ (v.exponent - 51) = 2 ^ (1 : Int) * 2 ^ (v.exponent - 52) := (two_zpow (by omega)).symm
    rw [twice]
    push_cast
    ring

theorem exists_places_or_far {z : ℚ} (binary : Binary z) :
    (∃ m : Nat, z = m * v.place) ∨ |v.toBinary.value - v.value| < |z - v.value| := by
  obtain ⟨m, e, narrow, rfl⟩ := binary
  rcases le_or_gt (v.exponent - 52) e with above | below
  · obtain ⟨k, shift⟩ : ∃ k : Nat, (k : Int) + (v.exponent - 52) = e :=
      ⟨(e - (v.exponent - 52)).toNat, by omega⟩
    refine .inl ⟨m * 2 ^ k, ?_⟩
    rw [place, ← two_zpow shift, zpow_natCast]
    push_cast
    ring
  · refine .inr ?_
    -- `z` is below the least number of full length, which is no nearer to the value than the rounded one
    have least : (2 ^ 52 : ℕ) * v.place ≤ v.value := by
      have power : (2 : ℚ) ^ (52 : Int) * 2 ^ (v.exponent - 52) = 2 ^ v.exponent := two_zpow (by omega)
      exact_mod_cast power.trans_le (exponent_spec num den).1
    have short : m * (2 : ℚ) ^ e < (2 ^ 52 : ℕ) * v.place := by
      have power : (2 : ℚ) ^ (53 : Int) * 2 ^ e ≤ 2 ^ (52 : Int) * 2 ^ (v.exponent - 52) := by
        rw [two_zpow rfl, two_zpow rfl]
        exact zpow_le_zpow_right₀ one_le_two (by omega)
      have size : (m : ℚ) < 2 ^ (53 : Int) := by exact_mod_cast narrow
      calc
        m * (2 : ℚ) ^ e < 2 ^ (53 : Int) * 2 ^ e := by gcongr
        _ ≤ 2 ^ (52 : Int) * 2 ^ (v.exponent - 52) := power
        _ = (2 ^ 52 : ℕ) * v.place := by norm_num [place]
    calc
      |v.toBinary.value - v.value| = |v.significand - v.inPlaces| * v.place := by
        rw [value_toBinary num, ← place, abs_mul_place_sub]
      _ ≤ |(2 ^ 52 : ℕ) - v.inPlaces| * v.place := by
        have nearest := (round_nearest (den_scale_pos den two_pos (-(v.exponent - 52))) (2 ^ 52)).1
        exact mul_le_mul_of_nonneg_right nearest v.place_pos.le
      _ = |(2 ^ 52 : ℕ) * v.place - v.value| := (abs_mul_place_sub _).symm
      _ < |m * (2 : ℚ) ^ e - v.value| := by
        rw [abs_of_nonpos (by linarith), abs_of_nonpos (by linarith)]
        linarith

end

theorem rounds_toBinary (den : 0 < v.den) : RoundsTo v.value v.toBinary.value := by
  rcases v.num.eq_zero_or_pos with zero | num
  · have same : v.toBinary = v := if_pos zero
    have none : v.value = 0 := by rw [value, zero, Nat.cast_zero, zero_div]
    rw [same, none]
    refine ⟨⟨0, 0, by decide, by simp⟩, fun z _ => by simp, fun z _ tie => .inl ?_⟩
    simpa using tie
  · obtain ⟨m, e, low, narrow, normal, even⟩ := exists_normal num den
    have distance : |v.toBinary.value - v.value| = |v.significand - v.inPlaces| * v.place := by
      rw [value_toBinary num, ← place, abs_mul_place_sub]
    have nearest (k : Nat) := round_nearest (den_scale_pos den two_pos (-(v.exponent - 52))) k
    refine ⟨⟨m, e, narrow, normal⟩, fun z binary => ?_, fun z binary tie => ?_⟩
    · rcases exists_places_or_far num den binary with ⟨k, rfl⟩ | far
      · rw [distance, abs_mul_place_sub]
        exact mul_le_mul_of_nonneg_right (nearest k).1 v.place_pos.le
      · exact far.le
    · rcases exists_places_or_far num den binary with ⟨k, rfl⟩ | far
      · rw [distance, abs_mul_place_sub] at tie
        rcases (nearest k).2 (mul_right_cancel₀ v.place_pos.ne' tie) with same | parity
        · left
          rw [value_toBinary num, ← place, same, significand]
        · exact .inr ⟨m, e, even parity, low, narrow, normal⟩
      · exact absurd tie far.ne'

theorem abs_toBinary_sub_le (den : 0 < v.den) : |v.toBinary.value - v.value| ≤ v.value / 2 ^ 53 := by
  rcases v.num.eq_zero_or_pos with zero | num
  · have same : v.toBinary = v := if_pos zero
    rw [same, sub_self, abs_zero]
    exact div_nonneg v.value_nonneg (by positivity)
  · have positive := v.place_pos
    calc
      |v.toBinary.value - v.value| = |v.significand - v.inPlaces| * v.place := by
            rw [value_toBinary num, ← place, abs_mul_place_sub]
      _ ≤ 1 / 2 * v.place := by
            have rounded := (round_spec (den_scale_pos den two_pos (-(v.exponent - 52)))).1
            gcongr
            exact rounded
      _ = 2 ^ v.exponent / 2 ^ 53 := by
            rw [place, zpow_sub₀ two_ne_zero]
            norm_num
            ring
      _ ≤ v.value / 2 ^ 53 := by
            have least := (exponent_spec num den).1
            gcongr

end Quotient

end Descent
