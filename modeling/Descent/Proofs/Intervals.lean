import Mathlib
import Descent.Interval
import Descent.Proofs.Computation
import Descent.Proofs.ExactField

namespace Descent.Interval

variable {α : Type}

section

variable [Scalar α]

def Proper (i : Interval α) : Prop := i.lower ≤ i.upper

def Within (i j : Interval α) : Prop := j.lower ≤ i.lower ∧ i.upper ≤ j.upper

theorem contains_iff {i : Interval α} {a : α} : i.contains a = true ↔ i.lower ≤ a ∧ a ≤ i.upper := by
  rw [contains, Bool.and_eq_true, decide_eq_true_iff, decide_eq_true_iff]

end

variable [ExactField α] {i i' j j' k k' : Interval α} {a b : α}

def members (i : Interval α) : Set α := Set.Icc i.lower i.upper

theorem mem_members : a ∈ i.members ↔ i.contains a = true := contains_iff.symm

theorem Proper.lower_mem (proper : i.Proper) : i.lower ∈ i.members := ⟨le_rfl, proper⟩

theorem Proper.upper_mem (proper : i.Proper) : i.upper ∈ i.members := ⟨proper, le_rfl⟩

theorem proper_point (a : α) : (point a).Proper := le_refl a

theorem mem_point : a ∈ (point b).members ↔ a = b := by
  rw [members, point, Set.Icc_self, Set.mem_singleton_iff]

theorem Within.subset (within : i.Within j) : i.members ⊆ j.members := Set.Icc_subset_Icc within.1 within.2

theorem within_refl (i : Interval α) : i.Within i := ⟨le_rfl, le_rfl⟩

theorem within_of_mem (member : a ∈ i.members) : (point a).Within i := member

/-- The smallest interval that holds the values. -/
structure Hull (k : Interval α) (values : Set α) : Prop where
  lower : IsLeast values k.lower
  upper : IsGreatest values k.upper

theorem Hull.proper {values : Set α} (hull : k.Hull values) : k.Proper := hull.upper.2 hull.lower.1

theorem Hull.subset {values : Set α} (hull : k.Hull values) : values ⊆ k.members :=
  fun _ member => ⟨hull.lower.2 member, hull.upper.2 member⟩

theorem Hull.within {values values' : Set α} (hull : k.Hull values) (hull' : k'.Hull values')
    (subset : values ⊆ values') : k.Within k' :=
  ⟨hull'.lower.2 (subset hull.lower.1), hull'.upper.2 (subset hull.upper.1)⟩

theorem make?_hull {lower upper : α} {values : Set α} (least : IsLeast values lower)
    (greatest : IsGreatest values upper) : ∃ k, make? lower upper = .ok k ∧ k.Hull values := by
  refine ⟨⟨lower, upper⟩, ?_, least, greatest⟩
  rw [make?, if_neg (not_lt.2 (greatest.2 least.1))]

theorem mul_self_le_of_nonpos (below : a ≤ b) (negative : b ≤ 0) : b * b ≤ a * a := by
  have mirrored := mul_self_le_mul_self (neg_nonneg.2 negative) (neg_le_neg below)
  rwa [neg_mul_neg, neg_mul_neg] at mirrored

section

variable (proper : i.Proper)

include proper

theorem neg_hull : ∃ k, i.neg = .ok k ∧ k.Hull ((- ·) '' i.members) := by
  refine make?_hull ⟨⟨_, proper.upper_mem, rfl⟩, ?_⟩ ⟨⟨_, proper.lower_mem, rfl⟩, ?_⟩
  · rintro _ ⟨a, ⟨-, above⟩, rfl⟩
    exact neg_le_neg above
  · rintro _ ⟨a, ⟨below, -⟩, rfl⟩
    exact neg_le_neg below

theorem square_hull : ∃ k, i.square = .ok k ∧ k.Hull ((fun a => a * a) '' i.members) := by
  rw [square]
  split
  case isTrue positive =>
    refine make?_hull ⟨⟨_, proper.lower_mem, rfl⟩, ?_⟩ ⟨⟨_, proper.upper_mem, rfl⟩, ?_⟩
    · rintro _ ⟨a, ⟨below, -⟩, rfl⟩
      exact mul_self_le_mul_self positive below
    · rintro _ ⟨a, ⟨below, above⟩, rfl⟩
      exact mul_self_le_mul_self (positive.trans below) above
  case isFalse negative =>
    have negative := (not_le.1 negative).le
    split
    case isTrue negative' =>
      refine make?_hull ⟨⟨_, proper.upper_mem, rfl⟩, ?_⟩ ⟨⟨_, proper.lower_mem, rfl⟩, ?_⟩
      · rintro _ ⟨a, ⟨-, above⟩, rfl⟩
        exact mul_self_le_of_nonpos above negative'
      · rintro _ ⟨a, ⟨below, above⟩, rfl⟩
        exact mul_self_le_of_nonpos below (above.trans negative')
    case isFalse positive =>
      have positive := (not_le.1 positive).le
      rw [Scalar.larger_eq]
      refine make?_hull ⟨⟨0, ⟨negative, positive⟩, mul_zero 0⟩, ?_⟩ ⟨?_, ?_⟩
      · rintro _ ⟨a, -, rfl⟩
        exact mul_self_nonneg a
      · rcases max_choice (i.lower * i.lower) (i.upper * i.upper) with largest | largest <;> rw [largest]
        · exact ⟨_, proper.lower_mem, rfl⟩
        · exact ⟨_, proper.upper_mem, rfl⟩
      · rintro _ ⟨a, ⟨below, above⟩, rfl⟩
        rcases le_total 0 a with sign | sign
        · exact le_max_of_le_right (mul_self_le_mul_self sign above)
        · exact le_max_of_le_left (mul_self_le_of_nonpos below sign)

variable (proper' : j.Proper)

include proper'

theorem add_hull : ∃ k, i.add j = .ok k ∧ k.Hull (Set.image2 (· + ·) i.members j.members) := by
  refine make?_hull ⟨⟨_, proper.lower_mem, _, proper'.lower_mem, rfl⟩, ?_⟩
    ⟨⟨_, proper.upper_mem, _, proper'.upper_mem, rfl⟩, ?_⟩
  · rintro _ ⟨a, ⟨below, -⟩, b, ⟨below', -⟩, rfl⟩
    exact add_le_add below below'
  · rintro _ ⟨a, ⟨-, above⟩, b, ⟨-, above'⟩, rfl⟩
    exact add_le_add above above'

theorem sub_hull : ∃ k, i.sub j = .ok k ∧ k.Hull (Set.image2 (· - ·) i.members j.members) := by
  refine make?_hull ⟨⟨_, proper.lower_mem, _, proper'.upper_mem, rfl⟩, ?_⟩
    ⟨⟨_, proper.upper_mem, _, proper'.lower_mem, rfl⟩, ?_⟩
  · rintro _ ⟨a, ⟨below, -⟩, b, ⟨-, above'⟩, rfl⟩
    exact sub_le_sub below above'
  · rintro _ ⟨a, ⟨-, above⟩, b, ⟨below', -⟩, rfl⟩
    exact sub_le_sub above below'

omit proper proper' in
theorem mul_mem_uIcc {l u : α} (below : l ≤ a) (above : a ≤ u) (b : α) :
    min (l * b) (u * b) ≤ a * b ∧ a * b ≤ max (l * b) (u * b) := by
  rcases le_total 0 b with sign | sign
  · exact ⟨min_le_of_left_le (mul_le_mul_of_nonneg_right below sign),
      le_max_of_le_right (mul_le_mul_of_nonneg_right above sign)⟩
  · exact ⟨min_le_of_right_le (mul_le_mul_of_nonpos_right above sign),
      le_max_of_le_left (mul_le_mul_of_nonpos_right below sign)⟩

theorem mul_hull : ∃ k, i.mul j = .ok k ∧ k.Hull (Set.image2 (· * ·) i.members j.members) := by
  have corner {a b : α} (ends : a = i.lower ∨ a = i.upper) (ends' : b = j.lower ∨ b = j.upper) :
      a * b ∈ Set.image2 (· * ·) i.members j.members := by
    refine ⟨a, ?_, b, ?_, rfl⟩
    · rcases ends with rfl | rfl
      · exact proper.lower_mem
      · exact proper.upper_mem
    · rcases ends' with rfl | rfl
      · exact proper'.lower_mem
      · exact proper'.upper_mem
  rw [mul]
  simp only [Scalar.smaller_eq, Scalar.larger_eq]
  refine make?_hull ⟨?_, ?_⟩ ⟨?_, ?_⟩
  · refine min_rec' (· ∈ _) (min_rec' (· ∈ _) (min_rec' (· ∈ _) ?_ ?_) ?_) ?_ <;> exact corner (by simp) (by simp)
  · rintro _ ⟨a, ⟨below, above⟩, b, ⟨below', above'⟩, rfl⟩
    have first := (mul_mem_uIcc below above b).1
    have second := (mul_mem_uIcc below' above' i.lower).1
    have third := (mul_mem_uIcc below' above' i.upper).1
    simp only [mul_comm _ i.lower, mul_comm _ i.upper] at second third
    simp only [min_assoc]
    grind
  · refine max_rec' (· ∈ _) (max_rec' (· ∈ _) (max_rec' (· ∈ _) ?_ ?_) ?_) ?_ <;> exact corner (by simp) (by simp)
  · rintro _ ⟨a, ⟨below, above⟩, b, ⟨below', above'⟩, rfl⟩
    have first := (mul_mem_uIcc below above b).2
    have second := (mul_mem_uIcc below' above' i.lower).2
    have third := (mul_mem_uIcc below' above' i.upper).2
    simp only [mul_comm _ i.lower, mul_comm _ i.upper] at second third
    grind

end

/-! ## Sums -/

def plus (total : Interval α) (is : List (Interval α)) : Interval α :=
  ⟨total.lower + (is.map lower).sum, total.upper + (is.map upper).sum⟩

theorem plus_cons (total i : Interval α) (is : List (Interval α)) :
    total.plus (i :: is) = plus ⟨total.lower + i.lower, total.upper + i.upper⟩ is := by
  simp only [plus, List.map_cons, List.sum_cons, add_assoc]

theorem add_eq (proper : i.Proper) (proper' : j.Proper) :
    i.add j = .ok ⟨i.lower + j.lower, i.upper + j.upper⟩ := by
  rw [add, make?, if_neg (not_lt.2 (add_le_add proper proper'))]

theorem foldlM_add {β : Type} {f : β → Except (Fault α) (Interval α)} {bs : List β}
    (propers : ∀ b ∈ bs, ∀ i, f b = .ok i → i.Proper) {total : Interval α} (proper : total.Proper) :
    bs.foldlM (fun total b => do total.add (← f b)) total = total.plus <$> bs.mapM f := by
  induction bs generalizing total with
  | nil => simp [plus]
  | cons b rest ih =>
      obtain ⟨here, propers⟩ := List.forall_mem_cons.1 propers
      rw [List.foldlM_cons, List.mapM_cons]
      cases bounded : f b with
      | error fault => rfl
      | ok i =>
          have next := here i bounded
          have proper' : Proper (⟨total.lower + i.lower, total.upper + i.upper⟩ : Interval α) :=
            add_le_add proper next
          simp only [ok_bind, add_eq proper next]
          rw [ih propers proper']
          cases rest.mapM f with
          | error fault => rfl
          | ok is => exact congrArg Except.ok (plus_cons total i is).symm

theorem plus_proper {is : List (Interval α)} (propers : ∀ i ∈ is, i.Proper) {total : Interval α}
    (proper : total.Proper) : (total.plus is).Proper := by
  induction is generalizing total with
  | nil => simpa [plus] using proper
  | cons i is ih =>
      obtain ⟨here, propers⟩ := List.forall_mem_cons.1 propers
      rw [plus_cons]
      exact ih propers (add_le_add proper here)

theorem plus_mem {is : List (Interval α)} {values : List α}
    (inside : List.Forall₂ (fun a i => a ∈ i.members) values is) {total : Interval α} (first : b ∈ total.members) :
    b + values.sum ∈ (total.plus is).members := by
  induction inside generalizing total b with
  | nil => simpa [plus] using first
  | @cons a i values is here _ ih =>
      rw [List.sum_cons, ← add_assoc, plus_cons]
      exact ih ⟨add_le_add first.1 here.1, add_le_add first.2 here.2⟩

theorem plus_within {is is' : List (Interval α)} (within : List.Forall₂ Within is is')
    {total total' : Interval α} (first : total.Within total') : (total.plus is).Within (total'.plus is') := by
  induction within generalizing total total' with
  | nil => simpa [plus] using first
  | cons here _ ih =>
      rw [plus_cons, plus_cons]
      exact ih ⟨add_le_add first.1 here.1, add_le_add first.2 here.2⟩

end Descent.Interval
