import Mathlib
import Descent.Proofs.ExactField

namespace Descent

inductive Extended (α : Type) where
  | nan
  | infinite (negative : Bool)
  | finite (value : α)

namespace Extended

variable {α : Type} [ExactField α]

def scale (negative : Bool) (a : α) : Extended α :=
  if a = 0 then nan else infinite (negative != decide (a < 0))

def neg : Extended α → Extended α
  | nan => nan
  | infinite negative => infinite (!negative)
  | finite a => finite (-a)

def add : Extended α → Extended α → Extended α
  | finite a, finite b => finite (a + b)
  | finite _, infinite negative => infinite negative
  | infinite negative, finite _ => infinite negative
  | infinite negative, infinite negative' => if negative = negative' then infinite negative else nan
  | nan, _ => nan
  | finite _, nan => nan
  | infinite _, nan => nan

def mul : Extended α → Extended α → Extended α
  | finite a, finite b => finite (a * b)
  | finite a, infinite negative => scale negative a
  | infinite negative, finite b => scale negative b
  | infinite negative, infinite negative' => infinite (negative != negative')
  | nan, _ => nan
  | finite _, nan => nan
  | infinite _, nan => nan

def div : Extended α → Extended α → Extended α
  | finite a, finite b => if b = 0 then if a = 0 then nan else infinite (decide (a < 0)) else finite (a / b)
  | finite _, infinite _ => finite 0
  | infinite negative, finite b => infinite (negative != decide (b < 0))
  | infinite _, infinite _ => nan
  | nan, _ => nan
  | finite _, nan => nan
  | infinite _, nan => nan

def abs : Extended α → Extended α
  | nan => nan
  | infinite _ => infinite false
  | finite a => finite |a|

def sqrt : Extended α → Extended α
  | nan => nan
  | infinite negative => if negative then nan else infinite false
  | finite a => if a < 0 then nan else finite (Scalar.sqrt a)

def AtMost : Extended α → Extended α → Prop
  | finite a, finite b => a ≤ b
  | finite _, infinite negative => negative = false
  | infinite negative, finite _ => negative = true
  | infinite negative, infinite negative' => negative = true ∨ negative' = false
  | nan, _ => False
  | finite _, nan => False
  | infinite _, nan => False

def decideAtMost : (a b : Extended α) → Decidable (AtMost a b)
  | finite a, finite b => inferInstanceAs (Decidable (a ≤ b))
  | finite _, infinite negative => inferInstanceAs (Decidable (negative = false))
  | infinite negative, finite _ => inferInstanceAs (Decidable (negative = true))
  | infinite negative, infinite negative' => inferInstanceAs (Decidable (negative = true ∨ negative' = false))
  | nan, _ => inferInstanceAs (Decidable False)
  | finite _, nan => inferInstanceAs (Decidable False)
  | infinite _, nan => inferInstanceAs (Decidable False)

instance (a b : Extended α) : Decidable (AtMost a b) := decideAtMost a b

instance : Scalar (Extended α) where
  zero := finite 0
  one := finite 1
  add := add
  sub a b := add a (neg b)
  mul := mul
  div := div
  neg := neg
  lt a b := AtMost a b ∧ ¬AtMost b a
  le := AtMost
  decideLT _ _ := inferInstance
  decideLE := decideAtMost
  ofNat n := finite n
  abs := abs
  sqrt := sqrt
  isNaN a := match a with
    | nan => true
    | infinite _ => false
    | finite _ => false
  isInfinite a := match a with
    | nan => false
    | infinite _ => true
    | finite _ => false

variable {a b c : Extended α} {x y : α} {negative negative' : Bool}

@[simp]
theorem finite_le_finite : (finite x : Extended α) ≤ finite y ↔ x ≤ y := Iff.rfl

@[simp]
theorem finite_le_infinite : (finite x : Extended α) ≤ infinite negative ↔ negative = false := Iff.rfl

@[simp]
theorem infinite_le_finite : (infinite negative : Extended α) ≤ finite x ↔ negative = true := Iff.rfl

@[simp]
theorem infinite_le_infinite :
    (infinite negative : Extended α) ≤ infinite negative' ↔ negative = true ∨ negative' = false := Iff.rfl

@[simp]
theorem not_nan_le : ¬(nan : Extended α) ≤ a := id

@[simp]
theorem not_le_nan : ¬a ≤ (nan : Extended α) := by
  cases a <;> exact id

theorem known_of_le (le : a ≤ b) : a ≠ nan ∧ b ≠ nan := by
  refine ⟨?_, ?_⟩ <;> rintro rfl
  · exact not_nan_le le
  · exact not_le_nan le

protected theorem le_total (known : a ≠ nan) (known' : b ≠ nan) : a ≤ b ∨ b ≤ a := by
  cases a with
  | nan => exact (known rfl).elim
  | infinite negative => cases b <;> cases negative <;> simp_all
  | finite x =>
      cases b with
      | nan => exact (known' rfl).elim
      | infinite negative => cases negative <;> simp
      | finite y => exact le_total x y

protected theorem le_refl (known : a ≠ nan) : a ≤ a := (Extended.le_total known known).elim id id

protected theorem le_trans (le : a ≤ b) (le' : b ≤ c) : a ≤ c := by
  cases a <;> cases b <;> cases c <;> simp_all only [finite_le_finite, finite_le_infinite, infinite_le_finite,
    infinite_le_infinite, not_nan_le, not_le_nan]
  case finite.finite.finite => exact le.trans le'
  all_goals grind

theorem le_finite_iff : a ≤ finite x ↔ a = infinite true ∨ ∃ l, a = finite l ∧ l ≤ x := by
  cases a <;> simp

theorem finite_le_iff : finite x ≤ a ↔ a = infinite false ∨ ∃ u, a = finite u ∧ x ≤ u := by
  cases a <;> simp

theorem smaller_le (known : a ≠ nan) :
    Scalar.smaller a b ≤ a ∧ (b ≠ nan → Scalar.smaller a b ≤ b) := by
  rw [Scalar.smaller]
  split
  case isTrue below => exact ⟨below.1, Extended.le_refl⟩
  case isFalse above =>
    refine ⟨Extended.le_refl known, fun known' => ?_⟩
    rcases Extended.le_total known known' with le | le
    · exact le
    · exact not_not.1 fun beyond => above ⟨le, beyond⟩

theorem le_larger (known : a ≠ nan) :
    a ≤ Scalar.larger a b ∧ (b ≠ nan → b ≤ Scalar.larger a b) := by
  rw [Scalar.larger]
  split
  case isTrue above => exact ⟨above.1, Extended.le_refl⟩
  case isFalse below =>
    refine ⟨Extended.le_refl known, fun known' => ?_⟩
    rcases Extended.le_total known known' with le | le
    · exact not_not.1 fun beyond => below ⟨le, beyond⟩
    · exact le

section

variable {choose : Extended α → Extended α → Extended α} {R : Extended α → Extended α → Prop}

omit [ExactField α] in
theorem foldl_nan (stuck : ∀ a, choose nan a = nan) (l : List (Extended α)) : l.foldl choose nan = nan := by
  induction l with
  | nil => rfl
  | cons b rest ih => rw [List.foldl_cons, stuck, ih]

omit [ExactField α] in
theorem foldl_before (refl : ∀ {a}, a ≠ nan → R a a) (trans : ∀ {a b c}, R a b → R b c → R a c)
    (chosen : ∀ {a b}, a ≠ nan → choose a b ≠ nan ∧ R (choose a b) a ∧ (b ≠ nan → R (choose a b) b))
    {l : List (Extended α)} (known : a ≠ nan) (member : b ∈ a :: l) (known' : b ≠ nan) :
    R (l.foldl choose a) b := by
  induction l generalizing a b with
  | nil =>
      cases List.mem_singleton.1 member
      exact refl known
  | cons next rest ih =>
      obtain ⟨onward, first, second⟩ := chosen (b := next) known
      have start := ih onward List.mem_cons_self onward
      rw [List.foldl_cons]
      rcases List.mem_cons.1 member with rfl | member
      · exact trans start first
      rcases List.mem_cons.1 member with rfl | member
      · exact trans start (second known')
      · exact ih onward (List.mem_cons_of_mem _ member) known'

end

theorem smallest_nan (l : List (Extended α)) : l.foldl Scalar.smaller nan = nan :=
  foldl_nan (fun _ => if_neg fun below => not_le_nan below.1) l

theorem largest_nan (l : List (Extended α)) : l.foldl Scalar.larger nan = nan :=
  foldl_nan (fun _ => if_neg fun above => not_nan_le above.1) l

theorem smallest_le {l : List (Extended α)} (known : a ≠ nan) (member : b ∈ a :: l) (known' : b ≠ nan) :
    l.foldl Scalar.smaller a ≤ b :=
  foldl_before Extended.le_refl Extended.le_trans (fun known => ⟨(known_of_le (smaller_le known).1).1,
    smaller_le known⟩) known member known'

theorem le_largest {l : List (Extended α)} (known : a ≠ nan) (member : b ∈ a :: l) (known' : b ≠ nan) :
    b ≤ l.foldl Scalar.larger a :=
  foldl_before (R := fun a b => b ≤ a) Extended.le_refl (fun le le' => Extended.le_trans le' le)
    (fun known => ⟨(known_of_le (le_larger known).1).2, le_larger known⟩) known member known'

theorem add_le_finite (below : a ≤ finite x) (below' : b ≤ finite y) : a + b ≤ finite (x + y) := by
  rcases le_finite_iff.1 below with rfl | ⟨l, rfl, le⟩ <;> rcases le_finite_iff.1 below' with rfl | ⟨l', rfl, le'⟩
  case inr.inr => exact add_le_add le le'
  all_goals rfl

theorem finite_le_add (above : finite x ≤ a) (above' : finite y ≤ b) : finite (x + y) ≤ a + b := by
  rcases finite_le_iff.1 above with rfl | ⟨u, rfl, le⟩ <;> rcases finite_le_iff.1 above' with rfl | ⟨u', rfl, le'⟩
  case inr.inr => exact add_le_add le le'
  all_goals rfl

theorem neg_le_finite (above : finite x ≤ a) : -a ≤ finite (-x) := by
  rcases finite_le_iff.1 above with rfl | ⟨u, rfl, le⟩
  · rfl
  · exact neg_le_neg le

theorem finite_le_neg (below : a ≤ finite x) : finite (-x) ≤ -a := by
  rcases le_finite_iff.1 below with rfl | ⟨l, rfl, le⟩
  · rfl
  · exact neg_le_neg le

@[simp]
theorem finite_mul_finite : (finite x * finite y : Extended α) = finite (x * y) := rfl

@[simp]
theorem infinite_mul_finite : (infinite negative * finite y : Extended α) = scale negative y := rfl

@[simp]
theorem finite_mul_infinite : (finite x * infinite negative : Extended α) = scale negative x := rfl

@[simp]
theorem infinite_mul_infinite :
    (infinite negative * infinite negative' : Extended α) = infinite (negative != negative') := rfl

theorem scale_zero : scale negative (0 : α) = nan := if_pos rfl

theorem scale_eq_nan_iff : scale negative y = nan ↔ y = 0 := by
  rw [scale]
  split
  case isTrue zero => exact iff_of_true rfl zero
  case isFalse nonzero => exact iff_of_false (by simp) nonzero

theorem scale_pos (positive : 0 < y) : scale negative y = infinite negative := by
  rw [scale, if_neg positive.ne', decide_eq_false (lt_asymm positive), Bool.bne_false]

theorem scale_neg (below : y < 0) : scale negative y = infinite (!negative) := by
  rw [scale, if_neg below.ne, decide_eq_true below, Bool.bne_true]

protected theorem mul_comm (a b : Extended α) : a * b = b * a := by
  cases a <;> cases b <;> first
    | rfl
    | simp only [finite_mul_finite, mul_comm]
    | simp only [infinite_mul_infinite, bne_comm]

theorem mul_infinite_pos (positive : 0 ≤ a) (nonzero : a ≠ 0) : a * infinite negative = infinite negative := by
  rcases finite_le_iff.1 positive with rfl | ⟨u, rfl, le⟩
  · rw [infinite_mul_infinite, Bool.false_bne]
  · exact scale_pos (lt_of_le_of_ne le fun zero => nonzero (congrArg finite zero.symm))

theorem mul_infinite_neg (below : a ≤ 0) (nonzero : a ≠ 0) : a * infinite negative = infinite (!negative) := by
  rcases le_finite_iff.1 below with rfl | ⟨l, rfl, le⟩
  · rw [infinite_mul_infinite, Bool.true_bne]
  · exact scale_neg (lt_of_le_of_ne le fun zero => nonzero (congrArg finite zero))

theorem zero_mul_finite : (0 * finite y : Extended α) = 0 := congrArg finite (zero_mul y)

theorem mul_self_known (known : a ≠ nan) : a * a ≠ nan := by
  cases a with
  | nan => exact (known rfl).elim
  | infinite negative => simp
  | finite x => simp

theorem mul_le_mul_pos (positive : 0 < y) (le : a ≤ b) : a * finite y ≤ b * finite y := by
  cases a <;> cases b <;> simp_all only [finite_mul_finite, infinite_mul_finite, scale_pos, finite_le_finite,
    finite_le_infinite, infinite_le_finite, infinite_le_infinite, not_nan_le, not_le_nan]
  exact mul_le_mul_of_nonneg_right le positive.le

theorem mul_le_mul_neg (below : y < 0) (le : a ≤ b) : b * finite y ≤ a * finite y := by
  cases a <;> cases b <;> simp_all only [finite_mul_finite, infinite_mul_finite, scale_neg, finite_le_finite,
    finite_le_infinite, infinite_le_finite, infinite_le_infinite, not_nan_le, not_le_nan, Bool.not_true,
    Bool.not_false, Bool.not_eq_true', Bool.not_eq_false']
  case finite.finite => exact mul_le_mul_of_nonpos_right le below.le
  case infinite.infinite => exact le.symm

end Extended

end Descent
