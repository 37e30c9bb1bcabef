import Mathlib
import Descent.Operand
import Descent.Proofs.Intervals

namespace Descent

variable {α ι : Type}

inductive Expression (ι α : Type) where
  | coordinate (k : ι)
  | number (a : α)
  | combine (operation : Operation) (a b : Expression ι α)
  | neg (a : Expression ι α)
  | square (a : Expression ι α)

namespace Expression

variable [Scalar α]

def value (x : ι → α) : Expression ι α → α
  | coordinate k => x k
  | number a => a
  | combine operation a b => operation.ofNumbers (a.value x) (b.value x)
  | neg a => -a.value x
  | square a => a.value x * a.value x

def range (box : ι → Interval α) : Expression ι α → Except (Fault α) (Operand α)
  | coordinate k => .ok (.interval (box k))
  | number a => .ok (.number a)
  | combine operation a b => do (← a.range box).combine operation (← b.range box)
  | neg a => do (← a.range box).neg
  | square a => do (← a.range box).square

end Expression

variable [ExactField α]

namespace Operand

variable {a b : Operand α}

def members (a : Operand α) : Set α := a.toInterval.members

def Proper (a : Operand α) : Prop := a.toInterval.Proper

def Within (a b : Operand α) : Prop := a.toInterval.Within b.toInterval

def Hull (c : Operand α) (values : Set α) : Prop := c.toInterval.Hull values

theorem proper_number (x : α) : (number x).Proper := Interval.proper_point x

theorem members_number (x : α) : (number x).members = {x} := Set.Icc_self x

theorem hull_number (x : α) : (number x).Hull {x} := ⟨isLeast_singleton, isGreatest_singleton⟩

theorem hull_interval {result : Except (Fault α) (Interval α)} {values : Set α}
    (hull : ∃ k, result = .ok k ∧ k.Hull values) : ∃ c, interval <$> result = .ok c ∧ c.Hull values := by
  obtain ⟨k, rfl, hull⟩ := hull
  exact ⟨interval k, rfl, hull⟩

theorem ofIntervals_hull (operation : Operation) {i j : Interval α} (proper : i.Proper) (proper' : j.Proper) :
    ∃ k, operation.ofIntervals i j = .ok k ∧ k.Hull (Set.image2 operation.ofNumbers i.members j.members) := by
  cases operation with
  | add => exact Interval.add_hull proper proper'
  | sub => exact Interval.sub_hull proper proper'
  | mul => exact Interval.mul_hull proper proper'

theorem ofNumberFirst_hull (operation : Operation) (x : α) {j : Interval α} (proper : j.Proper) :
    ∃ k, operation.ofNumberFirst x j = .ok k ∧
      k.Hull (Set.image2 operation.ofNumbers (Interval.point x).members j.members) := by
  have proper' := Interval.proper_point x
  cases operation with
  | add =>
      have exchanged : Set.image2 Operation.add.ofNumbers (Interval.point x).members j.members =
          Set.image2 (· + ·) j.members (Interval.point x).members := Set.image2_comm add_comm
      rw [exchanged]
      exact Interval.add_hull proper proper'
  | sub => exact Interval.sub_hull proper' proper
  | mul =>
      have exchanged : Set.image2 Operation.mul.ofNumbers (Interval.point x).members j.members =
          Set.image2 (· * ·) j.members (Interval.point x).members := Set.image2_comm mul_comm
      rw [exchanged]
      exact Interval.mul_hull proper proper'

theorem combine_hull (operation : Operation) (proper : a.Proper) (proper' : b.Proper) :
    ∃ c, combine operation a b = .ok c ∧ c.Hull (Set.image2 operation.ofNumbers a.members b.members) := by
  cases a with
  | number x =>
      cases b with
      | number y =>
          refine ⟨_, rfl, ?_⟩
          rw [members_number, members_number, Set.image2_singleton]
          exact hull_number _
      | interval j => exact hull_interval (ofNumberFirst_hull operation x proper')
  | interval i => exact hull_interval (ofIntervals_hull operation proper proper')

theorem neg_hull (proper : a.Proper) : ∃ c, a.neg = .ok c ∧ c.Hull ((- ·) '' a.members) := by
  cases a with
  | number x =>
      refine ⟨_, rfl, ?_⟩
      rw [members_number, Set.image_singleton]
      exact hull_number _
  | interval i => exact hull_interval (Interval.neg_hull proper)

theorem square_hull (proper : a.Proper) : ∃ c, a.square = .ok c ∧ c.Hull ((fun x => x * x) '' a.members) :=
  hull_interval (Interval.square_hull proper)

end Operand

namespace Expression

variable {box box' : ι → Interval α}

theorem exists_range (e : Expression ι α) (proper : ∀ k, (box k).Proper) :
    ∃ c, e.range box = .ok c ∧ c.Proper ∧ ∀ x, (∀ k, x k ∈ (box k).members) → e.value x ∈ c.members := by
  induction e with
  | coordinate k => exact ⟨_, rfl, proper k, fun x inside => inside k⟩
  | number a => exact ⟨_, rfl, Operand.proper_number a, fun x _ => Interval.mem_point.2 rfl⟩
  | combine operation a b iha ihb =>
      obtain ⟨c, ranged, properly, encloses⟩ := iha
      obtain ⟨d, ranged', properly', encloses'⟩ := ihb
      obtain ⟨r, combined, hull⟩ := Operand.combine_hull operation properly properly'
      refine ⟨r, ?_, hull.proper, fun x inside => hull.subset ?_⟩
      · rw [range, ranged, ranged']
        exact combined
      · exact Set.mem_image2_of_mem (encloses x inside) (encloses' x inside)
  | neg a ih =>
      obtain ⟨c, ranged, properly, encloses⟩ := ih
      obtain ⟨r, negated, hull⟩ := Operand.neg_hull properly
      refine ⟨r, ?_, hull.proper, fun x inside => hull.subset ⟨_, encloses x inside, rfl⟩⟩
      rw [range, ranged]
      exact negated
  | square a ih =>
      obtain ⟨c, ranged, properly, encloses⟩ := ih
      obtain ⟨r, squared, hull⟩ := Operand.square_hull properly
      refine ⟨r, ?_, hull.proper, fun x inside => hull.subset ⟨_, encloses x inside, rfl⟩⟩
      rw [range, ranged]
      exact squared

theorem exists_ranges (e : Expression ι α) (proper : ∀ k, (box k).Proper) (proper' : ∀ k, (box' k).Proper)
    (within : ∀ k, (box' k).Within (box k)) :
    ∃ c c', e.range box = .ok c ∧ e.range box' = .ok c' ∧ c.Proper ∧ c'.Proper ∧ c'.Within c := by
  induction e with
  | coordinate k => exact ⟨_, _, rfl, rfl, proper k, proper' k, within k⟩
  | number a =>
      exact ⟨_, _, rfl, rfl, Operand.proper_number a, Operand.proper_number a, Interval.within_refl _⟩
  | combine operation a b iha ihb =>
      obtain ⟨c, c', ranged, ranged', properly, properly', inside⟩ := iha
      obtain ⟨d, d', second, second', properly₂, properly₂', inside₂⟩ := ihb
      obtain ⟨r, combined, hull⟩ := Operand.combine_hull operation properly properly₂
      obtain ⟨r', combined', hull'⟩ := Operand.combine_hull operation properly' properly₂'
      refine ⟨r, r', ?_, ?_, hull.proper, hull'.proper, ?_⟩
      · rw [range, ranged, second]
        exact combined
      · rw [range, ranged', second']
        exact combined'
      · exact hull'.within hull (Set.image2_subset inside.subset inside₂.subset)
  | neg a ih =>
      obtain ⟨c, c', ranged, ranged', properly, properly', inside⟩ := ih
      obtain ⟨r, negated, hull⟩ := Operand.neg_hull properly
      obtain ⟨r', negated', hull'⟩ := Operand.neg_hull properly'
      refine ⟨r, r', ?_, ?_, hull.proper, hull'.proper, hull'.within hull (Set.image_mono inside.subset)⟩
      · rw [range, ranged]
        exact negated
      · rw [range, ranged']
        exact negated'
  | square a ih =>
      obtain ⟨c, c', ranged, ranged', properly, properly', inside⟩ := ih
      obtain ⟨r, squared, hull⟩ := Operand.square_hull properly
      obtain ⟨r', squared', hull'⟩ := Operand.square_hull properly'
      refine ⟨r, r', ?_, ?_, hull.proper, hull'.proper, hull'.within hull (Set.image_mono inside.subset)⟩
      · rw [range, ranged]
        exact squared
      · rw [range, ranged']
        exact squared'

/-- Every operation gives the hull of its results, also where one operand is a number, so the range of an
expression holds all its values, and shrinks with the box. -/
theorem exact_ranges :
    (∀ i j : Interval α, i.Proper → j.Proper →
      (∃ k, i.add j = .ok k ∧ k.Hull (Set.image2 (· + ·) i.members j.members)) ∧
      (∃ k, i.sub j = .ok k ∧ k.Hull (Set.image2 (· - ·) i.members j.members)) ∧
      (∃ k, i.mul j = .ok k ∧ k.Hull (Set.image2 (· * ·) i.members j.members)) ∧
      (∃ k, i.neg = .ok k ∧ k.Hull ((- ·) '' i.members)) ∧
      ∃ k, i.square = .ok k ∧ k.Hull ((fun a => a * a) '' i.members) ∧
        ∃ k', i.mul i = .ok k' ∧ k.Within k') ∧
    (∀ (operation : Operation) (a b : Operand α), a.Proper → b.Proper → ∃ c,
      Operand.combine operation a b = .ok c ∧ c.Hull (Set.image2 operation.ofNumbers a.members b.members)) ∧
    ∀ (e : Expression ι α) (box : ι → Interval α), (∀ k, (box k).Proper) → ∃ c, e.range box = .ok c ∧
      (∀ x : ι → α, (∀ k, (box k).contains (x k) = true) → c.toInterval.contains (e.value x) = true) ∧
      ∀ box' : ι → Interval α, (∀ k, (box' k).Proper) → (∀ k, (box' k).Within (box k)) →
        ∃ c', e.range box' = .ok c' ∧ c'.Within c := by
  refine ⟨fun i j proper proper' => ?operations, fun operation a b => Operand.combine_hull operation,
    fun e box proper => ?expressions⟩
  case operations =>
    refine ⟨Interval.add_hull proper proper', Interval.sub_hull proper proper', Interval.mul_hull proper proper',
      Interval.neg_hull proper, ?_⟩
    obtain ⟨k, squared, hull⟩ := Interval.square_hull proper
    obtain ⟨k', multiplied, hull'⟩ := Interval.mul_hull proper proper
    refine ⟨k, squared, hull, k', multiplied, hull.within hull' ?_⟩
    rintro _ ⟨a, member, rfl⟩
    exact Set.mem_image2_of_mem member member
  case expressions =>
    obtain ⟨c, ranged, -, encloses⟩ := e.exists_range proper
    refine ⟨c, ranged, fun x inside => ?_, fun box' proper' within => ?_⟩
    · exact Interval.mem_members.1 (encloses x fun k => Interval.mem_members.2 (inside k))
    · obtain ⟨d, c', ranged', shrunk, -, -, smaller⟩ := e.exists_ranges proper proper' within
      cases ranged.symm.trans ranged'
      exact ⟨c', shrunk, smaller⟩

def folded : Expression Unit ℚ :=
  combine .mul (combine .sub (number 2) (coordinate ())) (square (coordinate ()))

theorem folded_exact :
    (∃ k, Interval.mul (⟨-1, 2⟩ : Interval ℚ) ⟨0, 1⟩ = .ok k ∧
      k.Hull (Set.image2 (· * ·) (Interval.members ⟨-1, 2⟩) (Interval.members ⟨0, 1⟩))) ∧
    ∃ c c', folded.range (fun _ => ⟨-1, 2⟩) = .ok c ∧ folded.range (fun _ => ⟨0, 1⟩) = .ok c' ∧ c'.Within c ∧
      c.toInterval.contains (folded.value fun _ => 1) = true := by
  have proper : (⟨-1, 2⟩ : Interval ℚ).Proper := show (-1 : ℚ) ≤ 2 by decide +kernel
  have proper' : (⟨0, 1⟩ : Interval ℚ).Proper := show (0 : ℚ) ≤ 1 by decide +kernel
  have within : (⟨0, 1⟩ : Interval ℚ).Within ⟨-1, 2⟩ := show (-1 : ℚ) ≤ 0 ∧ (1 : ℚ) ≤ 2 by decide +kernel
  obtain ⟨operations, -, expressions⟩ := exact_ranges (α := ℚ) (ι := Unit)
  obtain ⟨c, ranged, encloses, shrinks⟩ := expressions folded _ fun _ => proper
  obtain ⟨c', shrunk, smaller⟩ := shrinks _ (fun _ => proper') fun _ => within
  exact ⟨(operations _ _ proper proper').2.2.1, c, c', ranged, shrunk, smaller, encloses _ fun _ => by decide +kernel⟩

end Expression

end Descent
