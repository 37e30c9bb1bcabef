import Mathlib
import Descent.Proofs.Numbers.Doubling
import Descent.Proofs.Numbers.Zero

/-!
# Products with a fraction

All finite numbers are multiples of the least positive one (`Counts`). Rounding to the nearest, of two equally
near ones to the even one, never takes the product of a positive number with a fraction beyond that number. It
falls below it if the fraction is at most one half, and it does not reach zero if the fraction is larger
(`Counts.mul`).
-/

namespace Descent.Binary64

open Float.Model
open UnpackedFloat (ExtendedMantissa Accuracy)

/-! ## Rounding a significand -/

def Stands (em : ExtendedMantissa) (x : ℚ) : Prop :=
  ∃ rest : ℚ, x = em.mantissa + em.roundBit.toNat / 2 + rest ∧ 0 ≤ rest ∧ rest < 1 / 2 ∧
    (em.stickyBit = false ↔ rest = 0)

theorem Stands.shiftRightOne {em : ExtendedMantissa} {x : ℚ} (stands : Stands em x) :
    Stands em.shiftRightOne (x / 2) := by
  obtain ⟨rest, rfl, least, below, sticky⟩ := stands
  have parity : (em.mantissa % 2 != 0).toNat = em.mantissa % 2 := by
    rcases Nat.mod_two_eq_zero_or_one em.mantissa with even | odd
    · rw [even]; rfl
    · rw [odd]; rfl
  have halves : (em.mantissa : ℚ) = 2 * (em.mantissa / 2 : Nat) + (em.mantissa % 2 : Nat) := by
    exact_mod_cast (Nat.div_add_mod em.mantissa 2).symm
  have bit : (em.roundBit.toNat : ℚ) ≤ 1 := by exact_mod_cast em.roundBit.toNat_le
  refine ⟨em.roundBit.toNat / 4 + rest / 2, ?_, by positivity, by linarith, ?_⟩
  · rw [ExtendedMantissa.shiftRightOne, parity, halves]
    ring
  · rw [ExtendedMantissa.shiftRightOne, Bool.or_eq_false_iff, sticky]
    cases em.roundBit
    · simp
    · simp
      intro
      linarith

theorem stands_shifted (whole k : Nat) :
    Stands (Nat.repeat ExtendedMantissa.shiftRightOne k ⟨whole, false, false⟩) (whole / 2 ^ k) := by
  induction k with
  | zero => exact ⟨0, by simp [Nat.repeat], le_rfl, by norm_num, by simp [Nat.repeat]⟩
  | succ k ih =>
      rw [Nat.repeat, pow_succ, ← div_div]
      exact ih.shiftRightOne

namespace Stands

variable {em : ExtendedMantissa} {x : ℚ} {a : Nat} (stands : Stands em x)

include stands

/-- Rounded down or up, whichever is nearer. One half is rounded down to zero. -/
theorem nearest :
    (em.roundedMantissa = em.mantissa ∧ em.mantissa ≤ x ∧ x ≤ em.mantissa + 1 / 2) ∨
      (em.roundedMantissa = em.mantissa + 1 ∧ em.mantissa + 1 / 2 ≤ x ∧ x < em.mantissa + 1 ∧
        (em.mantissa = 0 → 1 / 2 < x)) := by
  obtain ⟨rest, rfl, least, below, sticky⟩ := stands
  obtain ⟨m, round, sticks⟩ := em
  rw [ExtendedMantissa.roundedMantissa]
  simp only at sticky ⊢
  cases round with
  | false =>
      refine .inl ⟨?_, by simpa using least, by simpa using below.le⟩
      cases sticks <;> rfl
  | true =>
      cases sticks with
      | true =>
          have more : 0 < rest := lt_of_le_of_ne least fun none => by simpa using sticky.2 none.symm
          refine .inr ⟨rfl, ?_, ?_, fun zero => ?_⟩ <;> simp
          · exact least
          · linarith
          · rw [zero]
            simpa using more
      | false =>
          have none : rest = 0 := sticky.1 rfl
          have tie : (ExtendedMantissa.mk m true false).accuracy.roundToNearestEven m = m + m % 2 := rfl
          rw [tie]
          rcases Nat.mod_two_eq_zero_or_one m with even | odd
          · exact .inl ⟨by rw [even]; rfl, by simp [none], by simp [none]⟩
          · refine .inr ⟨by rw [odd], by simp [none], by simp [none]; norm_num, fun zero => ?_⟩
            rw [zero] at odd
            cases odd

theorem rounded_le (most : x ≤ a) : em.roundedMantissa ≤ a := by
  rcases stands.nearest with ⟨down, low, high⟩ | ⟨up, low, high, -⟩
  · rw [down]
    exact_mod_cast low.trans most
  · rw [up, Nat.succ_le_iff, ← Nat.cast_lt (α := ℚ)]
    linarith

theorem le_rounded (least : a ≤ x) : a ≤ em.roundedMantissa := by
  rcases stands.nearest with ⟨down, low, high⟩ | ⟨up, low, high, -⟩
  · rw [down, ← Nat.lt_succ_iff, ← Nat.cast_lt (α := ℚ), Nat.cast_succ]
    linarith
  · rw [up]
    exact_mod_cast least.trans high.le

theorem rounded_lt (positive : 0 < a) (half : 2 * x ≤ a) : em.roundedMantissa < a := by
  rcases stands.nearest with ⟨down, low, high⟩ | ⟨up, low, high, more⟩
  · have twice : 2 * em.mantissa ≤ a := by exact_mod_cast (by linarith : (2 * em.mantissa : ℚ) ≤ a)
    omega
  · have twice : 2 * em.mantissa + 1 ≤ a := by
      exact_mod_cast (by linarith : (2 * em.mantissa + 1 : ℚ) ≤ a)
    have second : em.mantissa = 0 → 1 < a := fun zero => by
      exact_mod_cast (by linarith [more zero] : (1 : ℚ) < a)
    omega

theorem rounded_pos (half : 1 / 2 < x) : 0 < em.roundedMantissa := by
  rcases stands.nearest with ⟨down, low, high⟩ | ⟨up, -⟩
  · rw [down, ← Nat.cast_pos (α := ℚ)]
    linarith
  · exact up ▸ Nat.succ_pos _

end Stands

/-! ## Rounding to a target exponent -/

def nearestAfter (whole k : Nat) : Nat :=
  (Nat.repeat ExtendedMantissa.shiftRightOne k ⟨whole, false, false⟩).roundedMantissa

theorem Canonical.shiftToTargetExponent_eq {m : Nat} {e : Int} (canonical : Canonical m e) :
    UnpackedFloat.shiftToTargetExponent Format.binary64 m e .exact = (⟨m, false, false⟩, e) := by
  have target : max (m.log2 + e - 52) (-1074) - e ≤ 0 := by
    have := canonical.log2_le
    have := canonical.least
    omega
  simp only [UnpackedFloat.shiftToTargetExponent, UnpackedFloat.shiftToExponent, targetExponent_eq,
    Int.toNat_of_nonpos target]
  exact Prod.ext rfl (Int.add_zero e)

theorem nearestAfter_le {whole k a : Nat} (most : whole ≤ a * 2 ^ k) : nearestAfter whole k ≤ a := by
  refine (stands_shifted whole k).rounded_le ((div_le_iff₀ (by positivity)).2 ?_)
  exact_mod_cast most

theorem le_nearestAfter {whole k a : Nat} (least : a * 2 ^ k ≤ whole) : a ≤ nearestAfter whole k := by
  refine (stands_shifted whole k).le_rounded ((le_div_iff₀ (by positivity)).2 ?_)
  exact_mod_cast least

theorem nearestAfter_lt {whole k a : Nat} (positive : 0 < a) (half : 2 * whole ≤ a * 2 ^ k) :
    nearestAfter whole k < a := by
  refine (stands_shifted whole k).rounded_lt positive ?_
  rw [← mul_div_assoc, div_le_iff₀ (by positivity)]
  exact_mod_cast half

theorem nearestAfter_pos {whole k : Nat} (half : 2 ^ k < 2 * whole) : 0 < nearestAfter whole k := by
  refine (stands_shifted whole k).rounded_pos ?_
  rw [div_lt_div_iff₀ (by positivity) (by positivity), one_mul, mul_comm]
  exact_mod_cast half

theorem canonical_nearestAfter {whole k : Nat} {e : Int} (positive : 0 < whole)
    (target : e + k = max (whole.log2 + e - 52) (-1074)) :
    Canonical (nearestAfter whole k) (e + k) ∨ nearestAfter whole k = 2 ^ 53 := by
  obtain ⟨low, high⟩ := (Nat.log2_eq_iff positive.ne').1 rfl
  have most : nearestAfter whole k ≤ 2 ^ 53 := by
    refine nearestAfter_le (high.le.trans ?_)
    rw [← pow_add]
    exact Nat.pow_le_pow_right Nat.two_pos (by omega)
  rcases most.lt_or_eq with narrow | full
  · refine .inl ⟨narrow, by omega, fun normal => le_nearestAfter (le_trans ?_ low)⟩
    rw [← pow_add]
    exact Nat.pow_le_pow_right Nat.two_pos (by omega)
  · exact .inr full

theorem roundWithAccuracy_of_shifted (s : UnpackedFloat.Sign) {whole : Nat} {e t : Int} {accuracy : Accuracy}
    {em : ExtendedMantissa}
    (shifted : UnpackedFloat.shiftToTargetExponent Format.binary64 whole e accuracy = (em, t)) (least : -1074 ≤ t)
    (rounded : Canonical em.roundedMantissa t ∨ em.roundedMantissa = 2 ^ 53) :
    (em.roundedMantissa = 0 ∧ UnpackedFloat.roundWithAccuracy Format.binary64 s whole e accuracy = .zero s) ∨
      ∃ m e' positive', UnpackedFloat.roundWithAccuracy Format.binary64 s whole e accuracy =
        .finite s m e' positive' ∧ Canonical m e' ∧ t ≤ e' ∧ em.roundedMantissa = m * 2 ^ (e' - t).toNat := by
  have rounds : UnpackedFloat.roundWithAccuracy Format.binary64 s whole e accuracy =
      let last := UnpackedFloat.shiftToTargetExponent Format.binary64 em.roundedMantissa t .exact
      if h : last.1.mantissa = 0 then .zero s
      else .finite s last.1.mantissa last.2 (Nat.pos_of_ne_zero h) := by
    simp only [UnpackedFloat.roundWithAccuracy, shifted]
  rcases rounded with canonical | full
  · rw [canonical.shiftToTargetExponent_eq] at rounds
    by_cases zero : em.roundedMantissa = 0
    · exact .inl ⟨zero, rounds.trans (dif_pos zero)⟩
    · refine .inr ⟨_, _, _, rounds.trans (dif_neg zero), canonical, le_rfl, ?_⟩
      rw [Int.sub_self, Int.toNat_zero, pow_zero, mul_one]
  -- rounding has carried: the exponent is one larger
  · have carried := shiftToTargetExponent_eq (k := 1) (m := 2 ^ 52) (e := t) (by positivity)
      Nat.log2_two_pow (by omega)
    have full : em.roundedMantissa = 2 ^ 1 * 2 ^ 52 := full
    rw [full, carried] at rounds
    refine .inr ⟨2 ^ 52, _, by decide, rounds, ⟨by decide, by omega, fun _ => le_rfl⟩, by omega, ?_⟩
    have one : (t + (1 : Nat) - t).toNat = 1 := by omega
    rw [full, one, mul_comm]

/-- An exact number is rounded to the significand that is nearest at the target exponent. -/
theorem roundWithAccuracy_exact {whole k : Nat} {e : Int} (s : UnpackedFloat.Sign) (positive : 0 < whole)
    (target : e + k = max (whole.log2 + e - 52) (-1074)) :
    (nearestAfter whole k = 0 ∧ UnpackedFloat.roundWithAccuracy Format.binary64 s whole e .exact = .zero s) ∨
      ∃ m e' positive', UnpackedFloat.roundWithAccuracy Format.binary64 s whole e .exact =
        .finite s m e' positive' ∧ Canonical m e' ∧ e + k ≤ e' ∧
          nearestAfter whole k = m * 2 ^ (e' - (e + k)).toNat := by
  have shifted : UnpackedFloat.shiftToTargetExponent Format.binary64 whole e .exact =
      (Nat.repeat ExtendedMantissa.shiftRightOne k ⟨whole, false, false⟩, e + k) := by
    have amount : (e + k - e).toNat = k := by omega
    simp only [UnpackedFloat.shiftToTargetExponent, UnpackedFloat.shiftToExponent, targetExponent_eq, ← target,
      amount]
    rfl
  exact roundWithAccuracy_of_shifted s shifted (by omega) (canonical_nearestAfter positive target)

/-! ## Multiples of the least number -/

def units (m : Nat) (e : Int) : Nat := m * 2 ^ (e + 1074).toNat

theorem units_eq {m : Nat} {e t : Int} (least : -1074 ≤ t) (above : t ≤ e) :
    units m e = m * 2 ^ (e - t).toNat * 2 ^ (t + 1074).toNat := by
  have split : (e + 1074).toNat = (e - t).toNat + (t + 1074).toNat := by omega
  rw [units, split, pow_add, mul_assoc]

namespace Canonical

variable {m m' : Nat} {e e' : Int} (canonical : Canonical m e) (canonical' : Canonical m' e')

include canonical canonical'

theorem units_lt (above : e < e') : units m e < units m' e' := by
  have least := canonical.least
  have room : (e + 1074).toNat + 1 ≤ (e' + 1074).toNat := by omega
  calc units m e < 2 ^ 53 * 2 ^ (e + 1074).toNat := Nat.mul_lt_mul_of_pos_right canonical.narrow (by positivity)
    _ = 2 ^ 52 * 2 ^ ((e + 1074).toNat + 1) := by ring
    _ ≤ m' * 2 ^ (e' + 1074).toNat :=
        Nat.mul_le_mul (canonical'.full (by omega)) (Nat.pow_le_pow_right Nat.two_pos room)

theorem units_injective (same : units m e = units m' e') : m = m' ∧ e = e' := by
  obtain rfl : e = e' := by
    rcases lt_trichotomy e e' with below | equal | above
    · exact absurd same (canonical.units_lt canonical' below).ne
    · exact equal
    · exact absurd same (canonical'.units_lt canonical above).ne'
  exact ⟨Nat.eq_of_mul_eq_mul_right (by positivity) same, rfl⟩

end Canonical

def unity : Nat := units (2 ^ 52) (-52)

theorem unity_eq {d t : Nat} (whole : d + t = 1074) : unity = 2 ^ d * 2 ^ t := by
  have rest : 52 + ((-52 : Int) + 1074).toNat = d + t := by omega
  rw [unity, units, ← pow_add, rest, pow_add]

theorem two_mul_units {m : Nat} {e : Int} (least : -1074 ≤ e) : 2 * units m e = units m (e + 1) := by
  have next : (e + 1 + 1074).toNat = (e + 1074).toNat + 1 := by omega
  rw [units, units, next, pow_succ]
  ring

def Counts (x : Float) (count : Nat) : Prop :=
  ∃ m e positive, x.toModel.unpack = .finite .positive m e positive ∧ units m e = count

theorem Counts.unique {x y : Float} {count : Nat} (left : Counts x count) (right : Counts y count) : x = y := by
  obtain ⟨m, e, positive, taken, rfl⟩ := left
  obtain ⟨m', e', positive', taken', same⟩ := right
  obtain ⟨rfl, rfl⟩ := (canonical_of_unpack taken').1.units_injective (canonical_of_unpack taken).1 same
  have models : x.toModel = y.toModel := by
    rw [← pack_unpack x.toModel, ← pack_unpack y.toModel, taken, taken']
  exact congrArg Float.ofModel models

theorem exists_shift {m₁ m₂ d : Nat} {e : Int} (canonical : Canonical m₁ e) (positive₁ : 0 < m₁)
    (positive₂ : 0 < m₂) (fraction : m₂ < 2 ^ d) (small : 0 < d) :
    ∃ k j : Nat, k + j = d ∧ -1074 ≤ e - j ∧
      e - d + k = max ((m₁ * m₂).log2 + (e - d) - 52) (-1074) := by
  have positive : m₁ * m₂ ≠ 0 := (Nat.mul_pos positive₁ positive₂).ne'
  have high : (m₁ * m₂).log2 < 53 + d := by
    rw [Nat.log2_lt positive, pow_add]
    exact Nat.mul_lt_mul'' canonical.narrow fraction
  have low : -1074 < e → 52 ≤ (m₁ * m₂).log2 := fun normal =>
    (Nat.le_log2 positive).2 ((canonical.full normal).trans (Nat.le_mul_of_pos_right m₁ positive₂))
  have least := canonical.least
  generalize target : max ((m₁ * m₂).log2 + (e - d) - 52) (-1074) = t
  exact ⟨(t - (e - d)).toNat, (e - t).toNat, by omega, by omega, by omega⟩

theorem exists_denominator {m : Nat} {e : Int} (canonical : Canonical m e) (positive : 0 < m)
    (below : units m e < unity) :
    ∃ d t : Nat, 0 < d ∧ e = -d ∧ unity = 2 ^ d * 2 ^ t ∧ units m e = m * 2 ^ t := by
  have least := canonical.least
  have negative : e < 0 := by
    by_contra whole
    have large : unity ≤ units m e := by
      rw [unity, units, units, ← pow_add]
      refine (Nat.pow_le_pow_right Nat.two_pos ?_).trans (Nat.le_mul_of_pos_left _ positive)
      omega
    exact absurd below large.not_gt
  exact ⟨(-e).toNat, (e + 1074).toNat, by omega, by omega, unity_eq (by omega), rfl⟩

theorem Counts.mul {x r : Float} {count part : Nat} (counts : Counts x count) (fraction : Counts r part)
    (below : part < unity) :
    ∃ product, ((x * r).toModel.unpack = .zero .positive ∧ product = 0 ∨ Counts (x * r) product) ∧
      product ≤ count ∧ (2 * part ≤ unity → product < count) ∧ (unity < 2 * part → 0 < product) := by
  obtain ⟨m₁, e, positive₁, taken₁, rfl⟩ := counts
  obtain ⟨m₂, e₂, positive₂, taken₂, rfl⟩ := fraction
  obtain ⟨canonical, room⟩ := canonical_of_unpack taken₁
  obtain ⟨d, t, small, rfl, unity, parts⟩ := exists_denominator (canonical_of_unpack taken₂).1 positive₂ below
  have unit : 0 < 2 ^ t := by positivity
  rw [parts, unity] at below ⊢
  have below : m₂ < 2 ^ d := Nat.lt_of_mul_lt_mul_right below
  -- the fraction is `m₂ / 2 ^ (k + j)`: the product loses `k` bits, and its exponent is `j` below that of `x`
  obtain ⟨k, j, rfl, least, target⟩ := exists_shift canonical positive₁ positive₂ below small
  have exponent : e + -((k + j : Nat) : Int) + k = e - j := by omega
  have target : e + -((k + j : Nat) : Int) + k =
      max ((m₁ * m₂).log2 + (e + -((k + j : Nat) : Int)) - 52) (-1074) := target
  have number : units m₁ e = m₁ * 2 ^ j * 2 ^ (e - j + 1074).toNat := by
    have back : (e - (e - j)).toNat = j := by omega
    rw [units_eq least (by omega), back]
  have whole : m₁ * 2 ^ j * 2 ^ k = m₁ * 2 ^ (k + j) := by rw [mul_assoc, ← pow_add, Nat.add_comm]
  have most : nearestAfter (m₁ * m₂) k ≤ m₁ * 2 ^ j :=
    nearestAfter_le (whole ▸ Nat.mul_le_mul_left m₁ below.le)
  refine ⟨nearestAfter (m₁ * m₂) k * 2 ^ (e - j + 1074).toNat, ?_, ?_, ?_, ?_⟩
  · have product := toModel_mul x r
    rw [taken₁, taken₂, UnpackedFloat.mul] at product
    rcases roundWithAccuracy_exact (.positive * .positive) (Nat.mul_pos positive₁ positive₂) target with
      ⟨zero, rounded⟩ | ⟨m, e', positive, rounded, canonical', above, nearest⟩
    · refine .inl ⟨?_, by rw [zero, Nat.zero_mul]⟩
      rw [product, rounded]
      rfl
    · have same : units m e' = nearestAfter (m₁ * m₂) k * 2 ^ (e - j + 1074).toNat := by
        rw [nearest, exponent, units_eq least (exponent ▸ above)]
      -- with a larger exponent the product would exceed `x`
      have room' : e' ≤ e := by
        by_contra larger
        have more := canonical.units_lt canonical' (not_le.1 larger)
        rw [number, same] at more
        exact absurd (Nat.mul_le_mul_right _ most) more.not_ge
      refine .inr ⟨m, e', positive, ?_, same⟩
      rw [product, rounded]
      exact unpack_pack canonical' (room'.trans room)
  · exact number ▸ Nat.mul_le_mul_right _ most
  · intro half
    rw [← mul_assoc] at half
    have half : 2 * m₂ ≤ 2 ^ (k + j) := Nat.le_of_mul_le_mul_right half unit
    have less : nearestAfter (m₁ * m₂) k < m₁ * 2 ^ j := by
      refine nearestAfter_lt (by positivity) ?_
      rw [whole, Nat.mul_left_comm]
      exact Nat.mul_le_mul_left m₁ half
    exact number ▸ Nat.mul_lt_mul_of_pos_right less (by positivity)
  · intro half
    rw [← mul_assoc] at half
    have half : 2 ^ (k + j) < 2 * m₂ := Nat.lt_of_mul_lt_mul_right half
    have some : 0 < nearestAfter (m₁ * m₂) k := nearestAfter_pos <| calc
      2 ^ k ≤ 2 ^ (k + j) := Nat.pow_le_pow_right Nat.two_pos (Nat.le_add_right k j)
      _ < 2 * m₂ := half
      _ ≤ 2 * (m₁ * m₂) := Nat.mul_le_mul_left 2 (Nat.le_mul_of_pos_left m₂ positive₁)
    exact Nat.mul_pos some (by positivity)

/-! ## Order -/

theorem Canonical.compare_units {m m' : Nat} {e e' : Int} (canonical : Canonical m e)
    (canonical' : Canonical m' e') :
    (compare e e').then (compare m m') = compare (units m e) (units m' e') := by
  rcases lt_trichotomy e e' with below | rfl | above
  · rw [compare_lt_iff_lt.2 below, compare_lt_iff_lt.2 (canonical.units_lt canonical' below)]
    rfl
  · rw [compare_eq_iff_eq.2 rfl, units, units]
    have unit : 0 < 2 ^ (e + 1074).toNat := by positivity
    rcases lt_trichotomy m m' with below | rfl | above
    · rw [compare_lt_iff_lt.2 below, compare_lt_iff_lt.2 (Nat.mul_lt_mul_of_pos_right below unit)]
      rfl
    · rw [compare_eq_iff_eq.2 rfl, compare_eq_iff_eq.2 rfl]
      rfl
    · rw [compare_gt_iff_gt.2 above, compare_gt_iff_gt.2 (Nat.mul_lt_mul_of_pos_right above unit)]
      rfl
  · rw [compare_gt_iff_gt.2 above, compare_gt_iff_gt.2 (canonical'.units_lt canonical above)]
    rfl

section

variable {x y : Float} {count count' : Nat} (left : Counts x count) (right : Counts y count')

include left right

theorem Counts.compare_eq :
    UnpackedFloat.compare x.toModel.unpack y.toModel.unpack = some (compare count count') := by
  obtain ⟨m, e, positive, taken, rfl⟩ := left
  obtain ⟨m', e', positive', taken', rfl⟩ := right
  rw [taken, taken', UnpackedFloat.compare,
    (canonical_of_unpack taken).1.compare_units (canonical_of_unpack taken').1]

theorem Counts.lt_iff : x < y ↔ count < count' := by
  rw [Binary64.lt_iff, UnpackedFloat.lt, left.compare_eq right, ← compare_lt_iff_lt]
  cases compare count count' <;> decide

theorem Counts.le_iff : x ≤ y ↔ count ≤ count' := by
  rw [Binary64.le_iff, UnpackedFloat.le, left.compare_eq right, ← compare_le_iff_le]
  cases compare count count' <;> decide

end

theorem counts_one : Counts 1 unity := ⟨2 ^ 52, -52, by decide, rfl, rfl⟩

theorem counts_half : ∃ half, Counts 0.5 half ∧ 2 * half = unity := by
  refine ⟨_, ⟨2 ^ 52, -53, by decide, rfl, rfl⟩, ?_⟩
  rw [two_mul_units (by decide)]
  rfl

theorem positive_iff {x : Float} : 0 < x ↔ x.toModel.unpack = .infinity .positive ∨ ∃ count, Counts x count := by
  have zero : (0 : Float).toModel.unpack = .zero .positive := rfl
  rw [lt_iff, zero]
  constructor
  · intro positive
    cases taken : x.toModel.unpack with
    | notANumber =>
        rw [taken] at positive
        cases positive
    | zero s =>
        rw [taken] at positive
        cases positive
    | infinity s =>
        rw [taken] at positive
        cases s with
        | positive => exact .inl rfl
        | negative => cases positive
    | finite s m e some =>
        rw [taken] at positive
        cases s with
        | positive => exact .inr ⟨_, m, e, some, taken, rfl⟩
        | negative => cases positive
  · rintro (infinite | ⟨count, m, e, positive, taken, -⟩)
    · rw [infinite]
      rfl
    · rw [taken]
      rfl

theorem Counts.zero_lt {x : Float} {count : Nat} (counts : Counts x count) : 0 < x :=
  positive_iff.2 (.inr ⟨count, counts⟩)

theorem Counts.not_same_zero_add {x : Float} {count : Nat} (counts : Counts x count) :
    Scalar.same (0 + x) 0 = false := by
  obtain ⟨m, e, positive, taken, -⟩ := counts
  have zero : (0 : Float).toModel.unpack = .zero .positive := rfl
  have same : UnpackedFloat.add Format.binary64 (.zero .positive) x.toModel.unpack = x.toModel.unpack := by
    rw [taken]
    rfl
  have sum : (0 + x).toModel = x.toModel := by rw [toModel_add, zero, same, pack_unpack]
  rw [same_eq, sum, taken]
  rfl

theorem infinite_or_counts {x : Float} (positive : 0 < x) :
    x.isInf = true ∧ x.toModel.unpack = .infinity .positive ∨ x.isInf = false ∧ ∃ count, Counts x count := by
  have infinite : x.isInf = x.toModel.unpack.isInf := rfl
  rcases positive_iff.1 positive with unbounded | ⟨count, m, e, some, taken, same⟩
  · refine .inl ⟨?_, unbounded⟩
    rw [infinite, unbounded]
    rfl
  · refine .inr ⟨?_, count, m, e, some, taken, same⟩
    rw [infinite, taken]
    rfl

theorem counts_fraction {r : Float} (positive : 0 < r) (below : r < 1) :
    ∃ part, Counts r part ∧ part < unity ∧ (r ≤ 0.5 → 2 * part ≤ unity) ∧ (0.5 < r → unity < 2 * part) := by
  rcases positive_iff.1 positive with infinite | ⟨part, counts⟩
  · rw [lt_iff, infinite] at below
    cases below
  · obtain ⟨half, middle, twice⟩ := counts_half
    refine ⟨part, counts, (counts.lt_iff counts_one).1 below, fun most => ?_, fun more => ?_⟩
    · exact twice ▸ Nat.mul_le_mul_left 2 ((counts.le_iff middle).1 most)
    · exact twice ▸ Nat.mul_lt_mul_of_pos_left ((middle.lt_iff counts).1 more) two_pos

end Descent.Binary64
