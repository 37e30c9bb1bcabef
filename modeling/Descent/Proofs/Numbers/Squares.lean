import Mathlib
import Descent.Proofs.Numbers.Infinite

namespace Descent.Binary64

open Float.Model
open UnpackedFloat (ExtendedMantissa Accuracy)

theorem mantissa_shifted (em : ExtendedMantissa) (k : Nat) :
    (Nat.repeat ExtendedMantissa.shiftRightOne k em).mantissa = em.mantissa / 2 ^ k := by
  induction k with
  | zero => simp [Nat.repeat]
  | succ k ih => rw [Nat.repeat, ExtendedMantissa.shiftRightOne, ih, Nat.div_div_eq_div_mul, pow_succ]

theorem mantissa_ofMantissaAndAccuracy (m : Nat) (accuracy : Accuracy) :
    (ExtendedMantissa.ofMantissaAndAccuracy m accuracy).mantissa = m := by
  cases accuracy with
  | exact => rfl
  | inexact position => cases position <;> rfl

theorem roundedMantissa_eq (em : ExtendedMantissa) :
    em.roundedMantissa = em.mantissa ∨ em.roundedMantissa = em.mantissa + 1 := by
  rw [ExtendedMantissa.roundedMantissa]
  cases em.accuracy with
  | exact => exact .inl rfl
  | inexact position =>
      cases position with
      | lt => exact .inl rfl
      | gt => exact .inr rfl
      | eq =>
          rw [Accuracy.roundToNearestEven]
          omega

theorem canonical_cut {whole : Nat} {e : Int} (positive : 0 < whole) (least : -1074 ≤ e)
    (full : -1074 < e → 2 ^ 52 ≤ whole) {k : Nat} (cut : k = whole.log2 - 52) :
    Canonical (whole / 2 ^ k) (e + k) ∧ (whole / 2 ^ k).log2 + k = whole.log2 ∧ 0 < whole / 2 ^ k := by
  obtain ⟨low, high⟩ := (Nat.log2_eq_iff positive.ne').1 rfl
  obtain ⟨j, size⟩ : ∃ j, whole.log2 = j + k := ⟨whole.log2 - k, by omega⟩
  rw [size] at low high cut ⊢
  have low' : 2 ^ j ≤ whole / 2 ^ k := by
    rwa [Nat.le_div_iff_mul_le (by positivity), ← pow_add]
  have high' : whole / 2 ^ k < 2 ^ (j + 1) := by
    rwa [Nat.div_lt_iff_lt_mul (by positivity), ← pow_add, Nat.add_right_comm]
  have some : 0 < whole / 2 ^ k := (Nat.two_pow_pos j).trans_le low'
  refine ⟨⟨high'.trans_le (Nat.pow_le_pow_right Nat.two_pos (by omega)), by omega, fun normal => ?_⟩, ?_, some⟩
  · refine le_trans (Nat.pow_le_pow_right Nat.two_pos ?_) low'
    by_contra short
    have none : k = 0 := by omega
    subst none
    have large := full (by omega)
    have more : 2 ^ (j + 0 + 1) ≤ 2 ^ 52 := Nat.pow_le_pow_right Nat.two_pos (by omega)
    omega
  · rw [(Nat.log2_eq_iff some.ne').2 ⟨low', high'⟩]

theorem shiftToTargetExponent_cut {whole k : Nat} {e : Int} (accuracy : Accuracy) (least : -1074 ≤ e)
    (cut : k = whole.log2 - 52) :
    UnpackedFloat.shiftToTargetExponent Format.binary64 whole e accuracy =
      (Nat.repeat ExtendedMantissa.shiftRightOne k (.ofMantissaAndAccuracy whole accuracy), e + k) := by
  have amount : (max (whole.log2 + e - 52) (-1074) - e).toNat = k := by omega
  simp only [UnpackedFloat.shiftToTargetExponent, UnpackedFloat.shiftToExponent, targetExponent_eq, amount]
  rfl

theorem roundWithAccuracy_canonical (s : UnpackedFloat.Sign) {whole : Nat} {e : Int} (accuracy : Accuracy)
    (positive : 0 < whole) (least : -1074 ≤ e) (full : -1074 < e → 2 ^ 52 ≤ whole) :
    ∃ m e' positive', UnpackedFloat.roundWithAccuracy Format.binary64 s whole e accuracy =
        .finite s m e' positive' ∧ Canonical m e' ∧
      whole.log2 + e ≤ m.log2 + e' ∧ m.log2 + e' ≤ whole.log2 + e + 1 := by
  generalize cut : whole.log2 - 52 = k
  obtain ⟨canonical, size, some⟩ := canonical_cut positive least full cut.symm
  have shifted := shiftToTargetExponent_cut accuracy least cut.symm
  have mantissa := mantissa_shifted (.ofMantissaAndAccuracy whole accuracy) k
  rw [mantissa_ofMantissaAndAccuracy] at mantissa
  generalize Nat.repeat ExtendedMantissa.shiftRightOne k (.ofMantissaAndAccuracy whole accuracy) = em
    at shifted mantissa
  generalize whole / 2 ^ k = q at canonical size some mantissa
  -- rounded down or up, the significand has the length that it has been cut to, or one bit more
  have near := roundedMantissa_eq em
  rw [mantissa] at near
  have narrow := canonical.narrow
  have rounded : Canonical em.roundedMantissa (e + k) ∨ em.roundedMantissa = 2 ^ 53 := by
    rcases (show em.roundedMantissa ≤ 2 ^ 53 by omega).lt_or_eq with inside | carried
    · exact .inl ⟨inside, canonical.least, fun normal => (canonical.full normal).trans (by omega)⟩
    · exact .inr carried
  obtain ⟨zero, -⟩ | ⟨m, e', positive', result, canonical', above, same⟩ :=
    roundWithAccuracy_of_shifted s shifted canonical.least rounded
  · omega
  · refine ⟨m, e', positive', result, canonical', ?_⟩
    have length : em.roundedMantissa.log2 = m.log2 + (e' - (e + k)).toNat := by
      rw [same, mul_comm, log2_two_pow_mul _ positive']
    obtain ⟨low, high⟩ := (Nat.log2_eq_iff some.ne').1 rfl
    have least' : q.log2 ≤ em.roundedMantissa.log2 := (Nat.le_log2 (by omega)).2 (low.trans (by omega))
    have most : em.roundedMantissa.log2 < q.log2 + 1 + 1 := (Nat.log2_lt (by omega)).2 (by omega)
    omega

theorem positive_of_pack {x : Float} {m : Nat} {e : Int} {positive : 0 < m}
    (packed : x.toModel = Float.Model.pack (.finite .positive m e positive)) (canonical : Canonical m e) :
    0 < x := by
  rw [positive_iff, packed]
  by_cases room : e ≤ 971
  · exact .inr ⟨_, m, e, positive, by rw [packed, unpack_pack canonical room], rfl⟩
  · exact .inl (unpack_pack_infinite (by omega))

theorem normalize_of_pos {whole : Nat} {e : Int} (zeroSign : UnpackedFloat.Sign) (positive : 0 < whole)
    (least : -1074 ≤ e) (full : -1074 < e → 2 ^ 52 ≤ whole) :
    UnpackedFloat.normalize Format.binary64 whole e zeroSign =
      UnpackedFloat.roundWithAccuracy Format.binary64 .positive whole e .exact := by
  have long : -1074 < e → 52 ≤ whole.log2 := fun normal => (Nat.le_log2 positive.ne').2 (full normal)
  have still : (e - max (whole.log2 + e - 52) (-1074)).toNat = 0 := by omega
  have above : compare (whole : Int) 0 = .gt := compare_gt_iff_gt.2 (Int.natCast_pos.2 positive)
  simp only [UnpackedFloat.normalize, above, UnpackedFloat.round, UnpackedFloat.decreaseExponent, targetExponent_eq,
    Int.toNat_natCast, still, Nat.shiftLeft_zero, Int.ofNat_zero, Int.sub_zero]

theorem add_finite {x y : Float} {m₁ m₂ : Nat} {e₁ e₂ : Int} {positive₁ : 0 < m₁} {positive₂ : 0 < m₂}
    (taken₁ : x.toModel.unpack = .finite .positive m₁ e₁ positive₁)
    (taken₂ : y.toModel.unpack = .finite .positive m₂ e₂ positive₂) :
    ∃ m e positive, (x + y).toModel = Float.Model.pack (.finite .positive m e positive) ∧ Canonical m e := by
  have canonical₁ := (canonical_of_unpack taken₁).1
  have canonical₂ := (canonical_of_unpack taken₂).1
  -- both significands are moved to the smaller exponent
  obtain ⟨e, smaller⟩ : ∃ e, min e₁ e₂ = e := ⟨_, rfl⟩
  obtain ⟨whole, sum⟩ : ∃ whole, m₁ * 2 ^ (e₁ - e).toNat + m₂ * 2 ^ (e₂ - e).toNat = whole := ⟨_, rfl⟩
  have least : -1074 ≤ e := by
    have := canonical₁.least
    have := canonical₂.least
    omega
  have positive : 0 < whole := by rw [← sum]; positivity
  have full : -1074 < e → 2 ^ 52 ≤ whole := by
    intro normal
    have large := canonical₁.full (by omega)
    have unit : 1 ≤ 2 ^ (e₁ - e).toNat := Nat.one_le_two_pow
    calc 2 ^ 52 ≤ m₁ * 1 := by omega
      _ ≤ m₁ * 2 ^ (e₁ - e).toNat := Nat.mul_le_mul_left m₁ unit
      _ ≤ whole := by omega
  have exact : UnpackedFloat.add Format.binary64 (.finite .positive m₁ e₁ positive₁)
      (.finite .positive m₂ e₂ positive₂) =
        UnpackedFloat.roundWithAccuracy Format.binary64 .positive whole e .exact := by
    rw [← normalize_of_pos .positive positive least full, ← sum, Nat.cast_add]
    simp only [UnpackedFloat.add, UnpackedFloat.decreaseExponent, UnpackedFloat.Sign.apply, smaller,
      Nat.shiftLeft_eq]
  obtain ⟨m, e', positive', rounded, canonical, -⟩ :=
    roundWithAccuracy_canonical .positive .exact positive least full
  exact ⟨m, e', positive', by rw [toModel_add, taken₁, taken₂, exact, rounded], canonical⟩

theorem nearestAfter_eq_zero_iff {whole k : Nat} : nearestAfter whole k = 0 ↔ 2 * whole ≤ 2 ^ k := by
  constructor
  · intro zero
    by_contra half
    have some := nearestAfter_pos (not_le.1 half)
    omega
  · intro half
    have none : nearestAfter whole k < 1 := nearestAfter_lt Nat.one_pos (by omega)
    omega

theorem unpack_mul_of_zero {x y : Float} {s : UnpackedFloat.Sign}
    (product : UnpackedFloat.mul Format.binary64 x.toModel.unpack y.toModel.unpack = .zero s) :
    (x * y).toModel.unpack = .zero s := by
  rw [toModel_mul, product]
  exact UnpackedFloat.unpack_packedZero

theorem unpack_mul_of_not_finite {x y : Float} {u : UnpackedFloat} (infinite : u.isFinite = false)
    (product : UnpackedFloat.mul Format.binary64 x.toModel.unpack y.toModel.unpack = u) :
    (x * y).toModel.unpack = u := by
  rw [toModel_mul, product, unpack_pack_of_not_finite infinite]

section

variable {m₁ m₂ : Nat} {e₁ e₂ : Int} (canonical₁ : Canonical m₁ e₁) (canonical₂ : Canonical m₂ e₂)
  (positive₁ : 0 < m₁) (positive₂ : 0 < m₂)

include canonical₁ canonical₂ positive₁ positive₂

theorem exists_target : ∃ k : Nat, e₁ + e₂ + k = max ((m₁ * m₂).log2 + (e₁ + e₂) - 52) (-1074) := by
  have least₁ := canonical₁.least
  have least₂ := canonical₂.least
  have positive := Nat.mul_pos positive₁ positive₂
  have above : e₁ + e₂ ≤ max ((m₁ * m₂).log2 + (e₁ + e₂) - 52) (-1074) := by
    by_cases normal : -1074 < e₁
    · have long : 52 ≤ (m₁ * m₂).log2 := (Nat.le_log2 positive.ne').2
        ((canonical₁.full normal).trans (Nat.le_mul_of_pos_right m₁ positive₂))
      omega
    · by_cases normal' : -1074 < e₂
      · have long : 52 ≤ (m₁ * m₂).log2 := (Nat.le_log2 positive.ne').2
          ((canonical₂.full normal').trans (Nat.le_mul_of_pos_left m₂ positive₁))
        omega
      · omega
  exact ⟨(max ((m₁ * m₂).log2 + (e₁ + e₂) - 52) (-1074) - (e₁ + e₂)).toNat, by omega⟩

/-- A product is at most half of the least number if all of its bits are shifted out, the first one at most to
the place behind the last. -/
theorem product_le_half_iff {k : Nat} (target : e₁ + e₂ + k = max ((m₁ * m₂).log2 + (e₁ + e₂) - 52) (-1074)) :
    2 * (units m₁ e₁ * units m₂ e₂) ≤ unity ↔ 2 * (m₁ * m₂) ≤ 2 ^ k := by
  have least₁ := canonical₁.least
  have least₂ := canonical₂.least
  have positive := Nat.mul_pos positive₁ positive₂
  have number : units m₁ e₁ * units m₂ e₂ = m₁ * m₂ * 2 ^ (e₁ + e₂ + 2148).toNat := by
    have places : (e₁ + e₂ + 2148).toNat = (e₁ + 1074).toNat + (e₂ + 1074).toNat := by omega
    rw [units, units, places, pow_add]
    ring
  obtain ⟨top, whole⟩ : ∃ top, top = 1074 := ⟨_, rfl⟩
  have one : unity = 2 ^ top := by rw [unity_eq (show top + 0 = 1074 from whole), pow_zero, mul_one]
  rw [number, one, ← mul_assoc 2]
  constructor
  · intro half
    refine Nat.le_of_mul_le_mul_right (half.trans ?_) (Nat.two_pow_pos (e₁ + e₂ + 2148).toNat)
    rw [← pow_add]
    exact Nat.pow_le_pow_right Nat.two_pos (by omega)
  · intro half
    have short : (m₁ * m₂).log2 < k := by
      by_contra long
      have low := Nat.log2_self_le positive.ne'
      have more : 2 ^ k ≤ 2 ^ (m₁ * m₂).log2 := Nat.pow_le_pow_right Nat.two_pos (not_lt.1 long)
      omega
    have places : k + (e₁ + e₂ + 2148).toNat = top := by omega
    calc 2 * (m₁ * m₂) * 2 ^ (e₁ + e₂ + 2148).toNat ≤ 2 ^ k * 2 ^ (e₁ + e₂ + 2148).toNat :=
          Nat.mul_le_mul_right _ half
      _ = 2 ^ top := by rw [← pow_add, places]

end

theorem mul_finite {x y : Float} {s₁ s₂ : UnpackedFloat.Sign} {m₁ m₂ : Nat} {e₁ e₂ : Int} {positive₁ : 0 < m₁}
    {positive₂ : 0 < m₂} (taken₁ : x.toModel.unpack = .finite s₁ m₁ e₁ positive₁)
    (taken₂ : y.toModel.unpack = .finite s₂ m₂ e₂ positive₂) :
    (2 * (units m₁ e₁ * units m₂ e₂) ≤ unity ∧ (x * y).toModel.unpack = .zero (s₁ * s₂)) ∨
      (unity < 2 * (units m₁ e₁ * units m₂ e₂) ∧ ∃ m e positive,
        (x * y).toModel = Float.Model.pack (.finite (s₁ * s₂) m e positive) ∧ Canonical m e) := by
  have canonical₁ := (canonical_of_unpack taken₁).1
  have canonical₂ := (canonical_of_unpack taken₂).1
  obtain ⟨k, target⟩ := exists_target canonical₁ canonical₂ positive₁ positive₂
  have product := toModel_mul x y
  rw [taken₁, taken₂, UnpackedFloat.mul] at product
  rw [← not_le, product_le_half_iff canonical₁ canonical₂ positive₁ positive₂ target, ← nearestAfter_eq_zero_iff]
  rcases roundWithAccuracy_exact (s₁ * s₂) (Nat.mul_pos positive₁ positive₂) target with
    ⟨zero, rounded⟩ | ⟨m, e', positive', rounded, canonical, -, nearest⟩
  · rw [rounded] at product
    exact .inl ⟨zero, by rw [product]; exact UnpackedFloat.unpack_packedZero⟩
  · refine .inr ⟨?_, m, e', positive', by rw [product, rounded], canonical⟩
    rw [nearest]
    exact (Nat.mul_pos positive' (Nat.two_pow_pos _)).ne'

theorem unpack_pack_of_abs_eq {x : Float.Model} {u : UnpackedFloat} (same : u.abs = x.unpack.abs) :
    (Float.Model.pack u).unpack = u := by
  cases u with
  | notANumber | infinity s => exact unpack_pack_of_not_finite rfl
  | zero s => exact UnpackedFloat.unpack_packedZero
  | finite s m e positive =>
      cases taken : x.unpack with
      | finite s' m' e' positive' =>
          rw [taken] at same
          injection same with _ mantissa exponent
          subst mantissa exponent
          obtain ⟨canonical, room⟩ := canonical_of_unpack taken
          exact unpack_pack canonical room
      | _ =>
          rw [taken] at same
          cases same

theorem unpack_abs (x : Float) : x.abs.toModel.unpack = x.toModel.unpack.abs :=
  unpack_pack_of_abs_eq (x := x.toModel) (by cases x.toModel.unpack <;> rfl)

def negligible : Float := 1.5717277847026285e-162

def negligibleUnits : Nat := units 6369051672525772 (-590)

theorem counts_negligible : Counts negligible negligibleUnits := by
  have packed : negligible.toModel =
      Float.Model.pack (.finite .positive 6369051672525772 (-590) (by decide)) := by decide +kernel
  exact ⟨_, _, _, by rw [packed, unpack_pack ⟨by decide, by decide, fun _ => by decide⟩ (by decide)], rfl⟩

theorem Canonical.square_le_iff {m : Nat} {e : Int} (canonical : Canonical m e) :
    2 * (units m e * units m e) ≤ unity ↔ units m e ≤ negligibleUnits := by
  obtain ⟨t, places⟩ : ∃ t, t = 484 := ⟨_, rfl⟩
  have one : unity = 2 ^ 106 * (2 ^ t * 2 ^ t) := by
    rw [← pow_add, ← unity_eq (show 106 + (t + t) = 1074 by omega)]
  have most : negligibleUnits = 6369051672525772 * 2 ^ t := by
    have back : (-590 + 1074 : Int).toNat = t := by omega
    rw [negligibleUnits, units, back]
  rw [one, most]
  constructor
  · intro half
    by_contra more
    -- the next number is already too large
    have next : 6369051672525773 * 2 ^ t ≤ units m e := by
      rcases lt_trichotomy e (-590) with below | rfl | above
      · have less : units m e < negligibleUnits :=
          canonical.units_lt ⟨by decide, by decide, fun _ => by decide⟩ below
        exact absurd (most ▸ less.le) more
      · have back : (-590 + 1074 : Int).toNat = t := by omega
        rw [units, back] at more ⊢
        exact Nat.mul_le_mul_right _ (Nat.lt_of_mul_lt_mul_right (not_le.1 more))
      · calc 6369051672525773 * 2 ^ t ≤ 2 ^ 52 * 2 * 2 ^ t := Nat.mul_le_mul_right _ (by decide)
          _ = 2 ^ 52 * 2 ^ (t + 1) := by ring
          _ ≤ units m e := Nat.mul_le_mul (canonical.full (by omega)) (Nat.pow_le_pow_right Nat.two_pos (by omega))
    have square := Nat.mul_le_mul next next
    have unit : 0 < 2 ^ t * 2 ^ t := by positivity
    have again : 6369051672525773 * 2 ^ t * (6369051672525773 * 2 ^ t) =
        6369051672525773 * 6369051672525773 * (2 ^ t * 2 ^ t) := by ring
    rw [again] at square
    generalize 2 ^ t * 2 ^ t = c at half square unit
    omega
  · intro small
    have square := Nat.mul_le_mul small small
    have again : 6369051672525772 * 2 ^ t * (6369051672525772 * 2 ^ t) =
        6369051672525772 * 6369051672525772 * (2 ^ t * 2 ^ t) := by ring
    rw [again] at square
    generalize 2 ^ t * 2 ^ t = c at square ⊢
    omega

/-- No negative number, nor the negative zero: what squares and their sums are. -/
inductive Unsigned (x : Float) : Prop
  | nan (taken : x.toModel.unpack = .notANumber)
  | zero (taken : x.toModel.unpack = .zero .positive)
  | positive (above : 0 < x)

theorem Unsigned.zero_or_positive {x : Float} (unsigned : Unsigned x) (number : x.toModel.unpack ≠ .notANumber) :
    x.toModel.unpack = .zero .positive ∨ x.toModel.unpack = .infinity .positive ∨ ∃ count, Counts x count := by
  cases unsigned with
  | nan taken => exact absurd taken number
  | zero taken => exact .inl taken
  | positive above => exact .inr (positive_iff.1 above)

theorem unpack_ne_of_positive {x : Float} (above : 0 < x) :
    x.toModel.unpack ≠ .notANumber ∧ ∀ s, x.toModel.unpack ≠ .zero s := by
  rcases positive_iff.1 above with infinite | ⟨_, m, e, positive, taken, -⟩
  · rw [infinite]
    exact ⟨UnpackedFloat.noConfusion, fun _ => UnpackedFloat.noConfusion⟩
  · rw [taken]
    exact ⟨UnpackedFloat.noConfusion, fun _ => UnpackedFloat.noConfusion⟩

theorem same_zero_iff {x : Float} : Scalar.same x 0 = true ↔ ∃ s, x.toModel.unpack = .zero s := by
  have zero : (0 : Float).toModel.unpack = .zero .positive := rfl
  rw [same_eq, zero]
  cases x.toModel.unpack with
  | zero s => exact ⟨fun _ => ⟨s, rfl⟩, fun _ => rfl⟩
  | notANumber => simp [UnpackedFloat.le, UnpackedFloat.compare]
  | infinity s => cases s <;> simp [UnpackedFloat.le, UnpackedFloat.compare]
  | finite s m e positive => cases s <;> simp [UnpackedFloat.le, UnpackedFloat.compare]

theorem Unsigned.same_zero_iff {x : Float} (unsigned : Unsigned x) :
    Scalar.same x 0 = true ↔ x.toModel.unpack = .zero .positive := by
  rw [Binary64.same_zero_iff]
  refine ⟨fun same => ?_, fun taken => ⟨_, taken⟩⟩
  obtain ⟨s, taken⟩ := same
  cases unsigned with
  | nan taken' => cases taken.symm.trans taken'
  | zero taken' => exact taken'
  | positive above => exact absurd taken ((unpack_ne_of_positive above).2 s)

theorem Unsigned.isInf_iff {x : Float} (unsigned : Unsigned x) :
    x.isInf = true ↔ x.toModel.unpack = .infinity .positive := by
  have same : x.isInf = x.toModel.unpack.isInf := rfl
  rw [same]
  cases unsigned with
  | nan taken | zero taken =>
      rw [taken]
      exact ⟨fun infinite => Bool.noConfusion infinite, UnpackedFloat.noConfusion⟩
  | positive above =>
      rcases positive_iff.1 above with taken | ⟨_, m, e, positive, taken, -⟩
      · rw [taken]
        exact ⟨fun _ => rfl, fun _ => rfl⟩
      · rw [taken]
        exact ⟨fun infinite => Bool.noConfusion infinite, UnpackedFloat.noConfusion⟩

theorem Unsigned.zero_le {x z : Float} (unsigned : Unsigned x) (number : x.toModel.unpack ≠ .notANumber)
    {s : UnpackedFloat.Sign} (zero : z.toModel.unpack = .zero s) : z ≤ x := by
  rw [le_iff, zero]
  rcases unsigned.zero_or_positive number with taken | taken | ⟨_, m, e, positive, taken, -⟩ <;>
  · rw [taken]
    rfl

theorem not_le_nan {x z : Float} (nan : x.toModel.unpack = .notANumber) : ¬z ≤ x := by
  rw [le_iff, nan]
  cases z.toModel.unpack <;> exact Bool.noConfusion

theorem square (x : Float) : Unsigned (x * x) ∧
    ((x * x).toModel.unpack = .zero .positive ↔ x.abs ≤ negligible) ∧
    ((x * x).toModel.unpack = .notANumber ↔ x.toModel.unpack = .notANumber) := by
  obtain ⟨m', e', positive', taken', -⟩ := id counts_negligible
  rw [le_iff, unpack_abs]
  cases taken : x.toModel.unpack with
  | notANumber =>
      have nan : (x * x).toModel.unpack = .notANumber := unpack_mul_of_not_finite rfl (by rw [taken]; rfl)
      rw [nan]
      exact ⟨.nan nan, ⟨UnpackedFloat.noConfusion, fun le => Bool.noConfusion le⟩, fun _ => rfl, fun _ => rfl⟩
  | infinity s =>
      have infinite : (x * x).toModel.unpack = .infinity .positive :=
        unpack_mul_of_not_finite rfl (by rw [taken]; cases s <;> rfl)
      rw [infinite, taken']
      exact ⟨.positive (positive_iff.2 (.inl infinite)), ⟨UnpackedFloat.noConfusion, fun le => Bool.noConfusion le⟩,
        UnpackedFloat.noConfusion, UnpackedFloat.noConfusion⟩
  | zero s =>
      have zero : (x * x).toModel.unpack = .zero .positive :=
        unpack_mul_of_zero (by rw [taken]; cases s <;> rfl)
      rw [zero, taken']
      exact ⟨.zero zero, ⟨fun _ => rfl, fun _ => rfl⟩, UnpackedFloat.noConfusion, UnpackedFloat.noConfusion⟩
  | finite s m e positive =>
      have canonical := (canonical_of_unpack taken).1
      have size : Counts x.abs (units m e) := ⟨m, e, positive, by rw [unpack_abs, taken]; rfl, rfl⟩
      have sign : s * s = .positive := by cases s <;> rfl
      have small := size.le_iff counts_negligible
      rw [le_iff, unpack_abs, taken] at small
      rw [small, ← canonical.square_le_iff]
      rcases mul_finite taken taken with ⟨half, zero⟩ | ⟨half, _, _, _, product, canonical'⟩
      · rw [sign] at zero
        rw [zero]
        exact ⟨.zero zero, ⟨fun _ => half, fun _ => rfl⟩, UnpackedFloat.noConfusion, UnpackedFloat.noConfusion⟩
      · rw [sign] at product
        have above := positive_of_pack product canonical'
        obtain ⟨number, nonzero⟩ := unpack_ne_of_positive above
        exact ⟨.positive above, ⟨fun zero => absurd zero (nonzero _), fun small => absurd small (not_le.2 half)⟩,
          fun nan => absurd nan number, UnpackedFloat.noConfusion⟩

theorem positive_add {x y : Float} (left : 0 < x) (right : 0 < y) : 0 < x + y := by
  have sum := toModel_add x y
  rcases positive_iff.1 left with infinite | ⟨_, m, e, positive, taken, -⟩
  · refine positive_iff.2 (.inl ?_)
    rcases positive_iff.1 right with infinite' | ⟨_, m', e', positive', taken', -⟩
    · rw [sum, infinite, infinite']
      exact unpack_pack_of_not_finite rfl
    · rw [sum, infinite, taken']
      exact unpack_pack_of_not_finite rfl
  · rcases positive_iff.1 right with infinite' | ⟨_, m', e', positive', taken', -⟩
    · refine positive_iff.2 (.inl ?_)
      rw [sum, taken, infinite']
      exact unpack_pack_of_not_finite rfl
    · obtain ⟨_, _, _, sum, canonical⟩ := add_finite taken taken'
      exact positive_of_pack sum canonical

theorem Unsigned.zero_add {x y : Float} (unsigned : Unsigned y) (zero : x.toModel.unpack = .zero .positive) :
    x + y = y := by
  have same : UnpackedFloat.add Format.binary64 (.zero .positive) y.toModel.unpack = y.toModel.unpack := by
    cases unsigned with
    | nan taken | zero taken =>
        rw [taken]
        rfl
    | positive above =>
        rcases positive_iff.1 above with taken | ⟨_, m, e, positive, taken, -⟩ <;>
        · rw [taken]
          rfl
  have sum := toModel_add x y
  rw [zero, same, pack_unpack] at sum
  exact congrArg Float.ofModel sum

theorem Unsigned.add {x y : Float} (left : Unsigned x) (right : Unsigned y) : Unsigned (x + y) ∧
    ((x + y).toModel.unpack = .zero .positive ↔
      x.toModel.unpack = .zero .positive ∧ y.toModel.unpack = .zero .positive) ∧
    ((x + y).toModel.unpack = .notANumber ↔ x.toModel.unpack = .notANumber ∨ y.toModel.unpack = .notANumber) := by
  have sum := toModel_add x y
  cases left with
  | nan taken =>
      have nan : (x + y).toModel.unpack = .notANumber := by
        rw [sum, taken, unpacked_nan_add]
        rfl
      simp [nan, taken, Unsigned.nan nan]
  | zero taken =>
      rw [right.zero_add taken, taken]
      simp [right]
  | positive above =>
      cases right with
      | nan taken' =>
          have nan : (x + y).toModel.unpack = .notANumber := by
            rw [sum, taken', unpacked_add_nan]
            rfl
          simp [nan, taken', Unsigned.nan nan]
      | zero taken' =>
          have same : x + y = x := by
            rcases add_zero taken' (x := x) with same | ⟨rfl, -⟩
            · exact same
            · exact absurd above (by decide)
          rw [same, taken']
          simp [Unsigned.positive above]
      | positive above' =>
          have both := positive_add above above'
          simp [Unsigned.positive both, unpack_ne_of_positive both, unpack_ne_of_positive above,
            unpack_ne_of_positive above']

theorem Unsigned.foldl {l : List Float} {c : Float} (start : Unsigned c) (all : ∀ a ∈ l, Unsigned a) :
    Unsigned (l.foldl (· + ·) c) ∧
    ((l.foldl (· + ·) c).toModel.unpack = .zero .positive ↔
      c.toModel.unpack = .zero .positive ∧ ∀ a ∈ l, a.toModel.unpack = .zero .positive) ∧
    ((l.foldl (· + ·) c).toModel.unpack = .notANumber ↔
      c.toModel.unpack = .notANumber ∨ ∃ a ∈ l, a.toModel.unpack = .notANumber) := by
  induction l generalizing c with
  | nil => simp [start]
  | cons a rest ih =>
      obtain ⟨unsigned, zero, nan⟩ := start.add (all a List.mem_cons_self)
      obtain ⟨unsigned', zero', nan'⟩ := ih unsigned fun b member => all b (List.mem_cons_of_mem a member)
      rw [zero, and_assoc] at zero'
      rw [nan, or_assoc] at nan'
      rw [List.foldl_cons, List.forall_mem_cons, List.exists_mem_cons_iff]
      exact ⟨unsigned', zero', nan'⟩

end Descent.Binary64
