import Mathlib
import Descent.Proofs.Numbers.Squares

namespace Descent.Binary64

open Float.Model

theorem toModel_sqrt (x : Float) : x.sqrt.toModel =
    Float.Model.pack (UnpackedFloat.sqrt Format.binary64 x.toModel.unpack) := rfl

theorem log2_sqrt {m : Nat} (positive : 0 < m) : m.sqrt.log2 = m.log2 / 2 := by
  obtain ⟨low, high⟩ := (Nat.log2_eq_iff positive.ne').1 rfl
  rw [Nat.log2_eq_iff (Nat.sqrt_pos.2 positive).ne', Nat.le_sqrt, Nat.sqrt_lt, ← pow_add, ← pow_add]
  exact ⟨(Nat.pow_le_pow_right Nat.two_pos (by omega)).trans low,
    high.trans_le (Nat.pow_le_pow_right Nat.two_pos (by omega))⟩

def leastRoot : Nat := units (2 ^ 52) (-589)

theorem leastRoot_eq {j : Nat} (place : j = 537) : leastRoot = 2 ^ j := by
  have places : 52 + (-589 + 1074 : Int).toNat = j := by omega
  rw [leastRoot, units, ← pow_add, places]

theorem unity_eq_square : unity = leastRoot * leastRoot := by
  obtain ⟨j, place⟩ : ∃ j, j = 537 := ⟨_, rfl⟩
  rw [leastRoot_eq place, unity_eq (show j + j = 1074 by omega)]

theorem Counts.sqrt {x : Float} {count : Nat} (counts : Counts x count) :
    ∃ root, Counts x.sqrt root ∧ leastRoot ≤ root := by
  obtain ⟨m, e, positive, taken, -⟩ := counts
  obtain ⟨canonical, room⟩ := canonical_of_unpack taken
  have short := canonical.log2_le
  have least := canonical.least
  have normal := canonical.log2_eq
  have core := toModel_sqrt x
  rw [taken] at core
  obtain ⟨t, target⟩ : ∃ t, min (e.ediv 2)
      (Format.binary64.targetExponent ((totalExponent m e + 1).ediv 2)) = t := ⟨_, rfl⟩
  have target' : min (e / 2) (max ((m.log2 + 1 + e + 1) / 2 - 53) (-1074)) = t := target
  -- the significand is shifted until its root is long enough
  obtain ⟨whole, shifted⟩ : ∃ whole, m <<< (e - 2 * t).toNat = whole := ⟨_, rfl⟩
  have size : whole.log2 = m.log2 + (e - 2 * t).toNat := by
    rw [← shifted, Nat.shiftLeft_eq, mul_comm, log2_two_pow_mul _ positive]
  have positive' : 0 < whole := by
    rw [← shifted, Nat.shiftLeft_eq]
    positivity
  have half := log2_sqrt positive'
  have some : 0 < whole.sqrt := Nat.sqrt_pos.2 positive'
  obtain ⟨m', e', positive'', rounded, canonical', low, high⟩ := roundWithAccuracy_canonical .positive
    (if whole - whole.sqrt * whole.sqrt = 0 then .exact
      else .inexact (if whole - whole.sqrt * whole.sqrt ≤ whole.sqrt then .lt else .gt))
    some (e := t) (by omega) fun _ => (Nat.le_log2 some.ne').1 (by omega)
  simp only [UnpackedFloat.sqrt, UnpackedFloat.sqrtCore, target, shifted, rounded] at core
  refine ⟨_, ⟨m', e', positive'', ?_, rfl⟩, ?_⟩
  · rw [core, unpack_pack canonical' (by omega)]
  · have least' := canonical'.least
    obtain ⟨j, place⟩ : ∃ j, j = 537 := ⟨_, rfl⟩
    calc leastRoot = 2 ^ j := leastRoot_eq place
      _ ≤ 2 ^ (m'.log2 + (e' + 1074).toNat) := Nat.pow_le_pow_right Nat.two_pos (by omega)
      _ = 2 ^ m'.log2 * 2 ^ (e' + 1074).toNat := pow_add ..
      _ ≤ units m' e' := Nat.mul_le_mul_right _ (Nat.log2_self_le positive''.ne')

inductive SameKind (x y : Float) : Prop
  | zero (left : x.toModel.unpack = .zero .positive) (right : y.toModel.unpack = .zero .positive)
  | infinite (left : x.toModel.unpack = .infinity .positive) (right : y.toModel.unpack = .infinity .positive)
  | finite {count count' : Nat} (left : Counts x count) (right : Counts y count')

namespace SameKind

variable {x y : Float} (kind : SameKind x y)

include kind

theorem unsigned : Unsigned y ∧ y.toModel.unpack ≠ .notANumber := by
  cases kind with
  | zero _ taken => exact ⟨.zero taken, by rw [taken]; exact UnpackedFloat.noConfusion⟩
  | infinite _ taken =>
      have above := positive_iff.2 (.inl taken)
      exact ⟨.positive above, (unpack_ne_of_positive above).1⟩
  | finite _ counts => exact ⟨.positive counts.zero_lt, (unpack_ne_of_positive counts.zero_lt).1⟩

theorem zero_iff : y.toModel.unpack = .zero .positive ↔ x.toModel.unpack = .zero .positive := by
  cases kind with
  | zero left right => simp [left, right]
  | infinite left right => simp [left, right]
  | finite left right => simp [unpack_ne_of_positive left.zero_lt, unpack_ne_of_positive right.zero_lt]

theorem infinite_iff : y.toModel.unpack = .infinity .positive ↔ x.toModel.unpack = .infinity .positive := by
  cases kind with
  | zero left right => simp [left, right]
  | infinite left right => simp [left, right]
  | finite left right =>
      obtain ⟨m, e, positive, taken, -⟩ := left
      obtain ⟨m', e', positive', taken', -⟩ := right
      simp [taken, taken']

end SameKind

theorem sqrt_cases {x : Float} (unsigned : Unsigned x) (number : x.toModel.unpack ≠ .notANumber) :
    (x.toModel.unpack = .zero .positive ∧ x.sqrt.toModel.unpack = .zero .positive) ∨
      (x.toModel.unpack = .infinity .positive ∧ x.sqrt.toModel.unpack = .infinity .positive) ∨
      ∃ count root, Counts x count ∧ Counts x.sqrt root ∧ leastRoot ≤ root := by
  have core := toModel_sqrt x
  rcases unsigned.zero_or_positive number with taken | taken | ⟨count, counts⟩
  · refine .inl ⟨taken, ?_⟩
    rw [core, taken]
    exact UnpackedFloat.unpack_packedZero
  · refine .inr (.inl ⟨taken, ?_⟩)
    rw [core, taken]
    exact unpack_pack_of_not_finite rfl
  · obtain ⟨root, counts', large⟩ := counts.sqrt
    exact .inr (.inr ⟨count, root, counts, counts', large⟩)

theorem sameKind_sqrt {x : Float} (unsigned : Unsigned x) (number : x.toModel.unpack ≠ .notANumber) :
    SameKind x x.sqrt := by
  rcases sqrt_cases unsigned number with ⟨left, right⟩ | ⟨left, right⟩ | ⟨_, _, left, right, -⟩
  · exact .zero left right
  · exact .infinite left right
  · exact .finite left right

/-! ## Products with a root -/

theorem mul_comm (x y : Float) : x * y = y * x := by
  have product := toModel_mul x y
  have product' := toModel_mul y x
  have signs (s s' : UnpackedFloat.Sign) : s * s' = s' * s := by cases s <;> cases s' <;> rfl
  have same : UnpackedFloat.mul Format.binary64 x.toModel.unpack y.toModel.unpack =
      UnpackedFloat.mul Format.binary64 y.toModel.unpack x.toModel.unpack := by
    cases x.toModel.unpack <;> cases y.toModel.unpack <;>
      simp only [UnpackedFloat.mul, signs, Nat.mul_comm, Int.add_comm]
  rw [same, ← product'] at product
  exact congrArg Float.ofModel product

theorem Counts.mul_pos {x y : Float} {count count' : Nat} (left : Counts x count) (right : Counts y count')
    (large : unity < 2 * (count * count')) : 0 < x * y := by
  obtain ⟨m, e, positive, taken, rfl⟩ := left
  obtain ⟨m', e', positive', taken', rfl⟩ := right
  rcases mul_finite taken taken' with ⟨half, -⟩ | ⟨-, _, _, _, product, canonical⟩
  · exact absurd half (not_le.2 large)
  · exact positive_of_pack product canonical

theorem Counts.scaled {r x : Float} {part count : Nat} (fraction : Counts r part) (below : part < unity)
    (least : leastRoot ≤ part) (counts : Counts x count) (least' : leastRoot ≤ count) :
    ∃ product, Counts (r * x) product := by
  have large : unity < 2 * (part * count) := by
    have square := Nat.mul_le_mul least least'
    rw [← unity_eq_square] at square
    have one : 0 < unity := Nat.zero_lt_of_lt below
    omega
  have above := fraction.mul_pos counts large
  obtain ⟨product, ⟨zero, -⟩ | found, -⟩ := counts.mul fraction below
  · rw [mul_comm] at zero
    exact absurd zero ((unpack_ne_of_positive above).2 _)
  · exact ⟨product, mul_comm x r ▸ found⟩

theorem sameKind_scaled {r x : Float} {part : Nat} (fraction : Counts r part) (below : part < unity)
    (least : leastRoot ≤ part) (unsigned : Unsigned x) (number : x.toModel.unpack ≠ .notANumber) :
    SameKind x (r * x.sqrt) := by
  rcases sqrt_cases unsigned number with ⟨left, right⟩ | ⟨left, right⟩ | ⟨_, _, left, right, large⟩
  · obtain ⟨m, e, positive, taken, -⟩ := fraction
    exact .zero left (unpack_mul_of_zero (by rw [taken, right]; rfl))
  · exact .infinite left (by rw [mul_comm, infinite_mul right fraction])
  · obtain ⟨product, counts⟩ := fraction.scaled below least right large
    exact .finite left counts

theorem Unsigned.mul {x y : Float} (left : Unsigned x) (right : Unsigned y)
    (number : x.toModel.unpack ≠ .notANumber) (number' : y.toModel.unpack ≠ .notANumber) :
    Unsigned (x * y) ∧ ((x * y).toModel.unpack = .notANumber ↔
      (x.toModel.unpack = .infinity .positive ∧ y.toModel.unpack = .zero .positive) ∨
        (x.toModel.unpack = .zero .positive ∧ y.toModel.unpack = .infinity .positive)) := by
  have zero (product : UnpackedFloat.mul Format.binary64 x.toModel.unpack y.toModel.unpack = .zero .positive) :
      Unsigned (x * y) ∧ (x * y).toModel.unpack ≠ .notANumber := by
    have taken := unpack_mul_of_zero product
    exact ⟨.zero taken, by rw [taken]; exact UnpackedFloat.noConfusion⟩
  have infinite (product : UnpackedFloat.mul Format.binary64 x.toModel.unpack y.toModel.unpack =
      .infinity .positive) : Unsigned (x * y) ∧ (x * y).toModel.unpack ≠ .notANumber := by
    have above := positive_iff.2 (.inl (unpack_mul_of_not_finite rfl product))
    exact ⟨.positive above, (unpack_ne_of_positive above).1⟩
  have nan (product : UnpackedFloat.mul Format.binary64 x.toModel.unpack y.toModel.unpack = .notANumber) :
      Unsigned (x * y) ∧ (x * y).toModel.unpack = .notANumber := by
    have taken := unpack_mul_of_not_finite rfl product
    exact ⟨.nan taken, taken⟩
  rcases left.zero_or_positive number with taken | taken | ⟨_, m, e, positive, taken, -⟩
  · rcases right.zero_or_positive number' with taken' | taken' | ⟨_, m', e', positive', taken', -⟩
    · simp [zero (by rw [taken, taken']; rfl), taken, taken']
    · simp [nan (by rw [taken, taken']; rfl), taken, taken']
    · simp [zero (by rw [taken, taken']; rfl), taken, taken']
  · rcases right.zero_or_positive number' with taken' | taken' | ⟨_, m', e', positive', taken', -⟩
    · simp [nan (by rw [taken, taken']; rfl), taken, taken']
    · simp [infinite (by rw [taken, taken']; rfl), taken, taken']
    · simp [infinite (by rw [taken, taken']; rfl), taken, taken']
  · rcases right.zero_or_positive number' with taken' | taken' | ⟨_, m', e', positive', taken', -⟩
    · simp [zero (by rw [taken, taken']; rfl), taken, taken']
    · simp [infinite (by rw [taken, taken']; rfl), taken, taken']
    · rcases mul_finite taken taken' with ⟨-, small⟩ | ⟨-, _, _, _, product, canonical⟩
      · have small : (x * y).toModel.unpack = .zero .positive := small
        simp [Unsigned.zero small, small, taken, taken']
      · have above := positive_of_pack product canonical
        simp [Unsigned.positive above, unpack_ne_of_positive above, taken, taken']

end Descent.Binary64
