import Mathlib
import Descent.Objective.Range
import Descent.Proofs.Evaluation.Faults
import Descent.Proofs.Evaluation.Reports
import Descent.Proofs.Intervals
import Descent.Sample.Terms

namespace Descent

variable {α : Type}

open Descent.Interval

/-! ## Terms -/

/-- The bounds of the term are intervals, which are wider for wider arguments and hold the value of the term where
the arguments are numbers. -/
structure Term.Inclusive [Scalar α] (t : Term α) : Prop where
  proper : ∀ args i, (∀ box ∈ args, ∀ j ∈ box, j.Proper) → t.range args = .ok i → i.Proper
  notEmpty : ∀ args lower upper, (∀ box ∈ args, ∀ j ∈ box, j.Proper) →
    t.range args ≠ .error (.emptyInterval lower upper)
  isotone : ∀ args args' i i', (∀ box ∈ args, ∀ j ∈ box, j.Proper) →
    (∀ box ∈ args', ∀ j ∈ box, j.Proper) → List.Forall₂ (List.Forall₂ Within) args args' →
    t.range args = .ok i → t.range args' = .ok i' → i.Within i'
  wider : ∀ xs a, xs.length = t.arity →
    (∀ k x, xs[k]? = some x → t.dimension k = .ok (x.length : Int)) →
    ((t.evaluate .value xs).run .zero).1 = .ok a →
    ∃ i, t.range (xs.map fun x => x.map point) = .ok i ∧ i.contains a = true

namespace Sample

variable [ExactField α]

def addComponent (center : α) (total i : Interval α) : Except (Fault α) (Interval α) := do
  let square ← (← i.sub (.point center)).square
  total.add (← square.mul (.point half))

theorem quadraticRange_eq (center : List α) (args : List (List (Interval α))) :
    quadraticRange center args =
      ((args.headD []).zip center).foldlM (fun total p => addComponent p.2 total p.1) (point 0) := rfl

variable {total total' i i' : Interval α} (proper : total.Proper) (proper_i : i.Proper)

include proper proper_i

theorem addComponent_hulls (center : α) : ∃ moved squared part sum : Interval α,
    addComponent center total i = .ok sum ∧
      moved.Hull (Set.image2 (· - ·) i.members (point center).members) ∧
      squared.Hull ((fun a => a * a) '' moved.members) ∧
      part.Hull (Set.image2 (· * ·) squared.members (point half).members) ∧
      sum.Hull (Set.image2 (· + ·) total.members part.members) := by
  obtain ⟨moved, here, moves⟩ := sub_hull proper_i (proper_point center)
  obtain ⟨squared, here', squares⟩ := square_hull moves.proper
  obtain ⟨part, here'', halves⟩ := mul_hull squares.proper (proper_point half)
  obtain ⟨sum, added, adds⟩ := add_hull proper halves.proper
  refine ⟨moved, squared, part, sum, ?_, moves, squares, halves, adds⟩
  simp only [addComponent, here, ok_bind, here', here'', added]

theorem addComponent_contains (center : α) : ∃ sum, addComponent center total i = .ok sum ∧ sum.Proper ∧
    ∀ s ∈ total.members, ∀ a ∈ i.members, s + (a - center) * (a - center) * half ∈ sum.members := by
  obtain ⟨moved, squared, part, sum, added, moves, squares, halves, adds⟩ :=
    addComponent_hulls proper proper_i center
  refine ⟨sum, added, adds.proper, fun s inside a inside' => adds.subset ⟨s, inside, _, ?_, rfl⟩⟩
  refine halves.subset ⟨_, squares.subset ⟨a - center, moves.subset ⟨a, inside', center, ?_, rfl⟩, rfl⟩,
    half, mem_point.2 rfl, rfl⟩
  exact mem_point.2 rfl

theorem addComponent_within (proper' : total'.Proper) (proper_i' : i'.Proper) (wider : total.Within total')
    (wider_i : i.Within i') (center : α) : ∃ sum sum', addComponent center total i = .ok sum ∧
      addComponent center total' i' = .ok sum' ∧ sum.Proper ∧ sum'.Proper ∧ sum.Within sum' := by
  obtain ⟨moved, squared, part, sum, added, moves, squares, halves, adds⟩ :=
    addComponent_hulls proper proper_i center
  obtain ⟨moved', squared', part', sum', added', moves', squares', halves', adds'⟩ :=
    addComponent_hulls proper' proper_i' center
  have first := moves.within moves' (Set.image2_subset_right wider_i.subset)
  have second := squares.within squares' (Set.image_mono first.subset)
  have third := halves.within halves' (Set.image2_subset_right second.subset)
  exact ⟨sum, sum', added, added', adds.proper, adds'.proper,
    adds.within adds' (Set.image2_subset wider.subset third.subset)⟩

omit proper_i in
theorem foldlM_addComponent_contains {xs : List α} {box : List (Interval α)}
    (inside : List.Forall₂ (fun a i => a ∈ i.members) xs box) (proper_box : ∀ i ∈ box, i.Proper)
    (center : List α) : ∃ sum,
      (box.zip center).foldlM (fun total p => addComponent p.2 total p.1) total = .ok sum ∧ sum.Proper ∧
      ∀ s ∈ total.members, s + ((xs.zip center).map fun p => (p.1 - p.2) * (p.1 - p.2) * half).sum ∈
        sum.members := by
  induction inside generalizing total center with
  | nil => exact ⟨total, rfl, proper, fun s member => by simpa using member⟩
  | @cons a i xs box here _ ih =>
      cases center with
      | nil => exact ⟨total, rfl, proper, fun s member => by simpa using member⟩
      | cons c center =>
          obtain ⟨proper_i, proper_box⟩ := List.forall_mem_cons.1 proper_box
          obtain ⟨next, added, proper', contains⟩ := addComponent_contains proper proper_i c
          obtain ⟨sum, folded, proper'', contains'⟩ := ih proper' proper_box center
          refine ⟨sum, ?_, proper'', fun s member => ?_⟩
          · rw [List.zip_cons_cons, List.foldlM_cons, added]
            exact folded
          · rw [List.zip_cons_cons, List.map_cons, List.sum_cons, ← add_assoc]
            exact contains' _ (contains s member a here)

omit proper_i in
theorem foldlM_addComponent_within {box box' : List (Interval α)} (proper' : total'.Proper)
    (wider : total.Within total') (within : List.Forall₂ Within box box') (proper_box : ∀ i ∈ box, i.Proper)
    (proper_box' : ∀ i ∈ box', i.Proper) (center : List α) : ∃ sum sum',
      (box.zip center).foldlM (fun total p => addComponent p.2 total p.1) total = .ok sum ∧
      (box'.zip center).foldlM (fun total p => addComponent p.2 total p.1) total' = .ok sum' ∧
      sum.Proper ∧ sum.Within sum' := by
  induction within generalizing total total' center with
  | nil => exact ⟨total, total', rfl, rfl, proper, wider⟩
  | cons here _ ih =>
      cases center with
      | nil => exact ⟨total, total', rfl, rfl, proper, wider⟩
      | cons c center =>
          obtain ⟨proper_i, proper_box⟩ := List.forall_mem_cons.1 proper_box
          obtain ⟨proper_i', proper_box'⟩ := List.forall_mem_cons.1 proper_box'
          obtain ⟨next, next', added, added', proper₁, proper₁', wider₁⟩ :=
            addComponent_within proper proper_i proper' proper_i' wider here c
          obtain ⟨sum, sum', folded, folded', proper₂, wider₂⟩ :=
            ih proper₁ proper₁' wider₁ proper_box proper_box' center
          refine ⟨sum, sum', ?_, ?_, proper₂, wider₂⟩
          · rw [List.zip_cons_cons, List.foldlM_cons, added]
            exact folded
          · rw [List.zip_cons_cons, List.foldlM_cons, added']
            exact folded'

omit proper proper_i

theorem halfSquare_subtract (xs center : List α) : halfSquare (subtract xs center) =
    ((xs.zip center).map fun p => (p.1 - p.2) * (p.1 - p.2) * half).sum := by
  have differences : subtract xs center = (xs.zip center).map fun p => p.1 - p.2 :=
    (List.map_zip_eq_zipWith (f := fun p : α × α => p.1 - p.2)).symm
  have squares : List.zipWith (· * ·) (subtract xs center) (subtract xs center) =
      (xs.zip center).map fun p => (p.1 - p.2) * (p.1 - p.2) := by
    rw [List.zipWith_self, differences, List.map_map]
    rfl
  rw [halfSquare, squares, ← List.sum_eq_foldl, List.sum_map_mul_right, mul_comm]

theorem proper_head {args : List (List (Interval α))} (proper : ∀ box ∈ args, ∀ j ∈ box, j.Proper) :
    ∀ j ∈ args.headD [], j.Proper := by
  cases args with
  | nil => exact fun j member => absurd member List.not_mem_nil
  | cons box rest => exact proper box List.mem_cons_self

theorem quadraticRange_within (center : List α) {args args' : List (List (Interval α))}
    (proper : ∀ box ∈ args, ∀ j ∈ box, j.Proper) (proper' : ∀ box ∈ args', ∀ j ∈ box, j.Proper)
    (within : List.Forall₂ (List.Forall₂ Within) args args') : ∃ i i', quadraticRange center args = .ok i ∧
      quadraticRange center args' = .ok i' ∧ i.Proper ∧ i.Within i' := by
  have heads : List.Forall₂ Within (args.headD []) (args'.headD []) := by
    cases within with
    | nil => exact .nil
    | cons here _ => exact here
  rw [quadraticRange_eq, quadraticRange_eq]
  exact foldlM_addComponent_within (proper_point 0) (proper_point 0) (within_refl _) heads (proper_head proper)
    (proper_head proper') center

theorem quadraticRange_ok (center : List α) {args : List (List (Interval α))}
    (proper : ∀ box ∈ args, ∀ j ∈ box, j.Proper) : ∃ i, quadraticRange center args = .ok i ∧ i.Proper := by
  have same : List.Forall₂ (List.Forall₂ Within) args args :=
    List.forall₂_same.2 fun box _ => List.forall₂_same.2 fun j _ => within_refl j
  obtain ⟨i, _, bounded, _, proper', -⟩ := quadraticRange_within center proper proper same
  exact ⟨i, bounded, proper'⟩

theorem inclusive_quadratic [Numeral α] (center : List α) : (quadratic center).Inclusive where
  proper args i proper bounded := by
    obtain ⟨i', bounded', proper'⟩ := quadraticRange_ok center proper
    cases bounded.symm.trans bounded'
    exact proper'
  notEmpty args lower upper proper refused := by
    obtain ⟨i', bounded, -⟩ := quadraticRange_ok center proper
    cases bounded.symm.trans refused
  isotone args args' i i' proper proper' within bounded bounded' := by
    obtain ⟨k, k', known, known', -, wider⟩ := quadraticRange_within center proper proper' within
    cases bounded.symm.trans known
    cases bounded'.symm.trans known'
    exact wider
  wider xs a _ _ valued := by
    have inside : List.Forall₂ (fun a i => a ∈ i.members) (xs.headD []) ((xs.headD []).map point) := by
      rw [List.forall₂_map_right_iff, List.forall₂_same]
      exact fun a _ => mem_point.2 rfl
    have head : (xs.map fun x => x.map point).headD [] = (xs.headD []).map point := by cases xs <;> rfl
    have first : argument xs 0 = xs.headD [] := by cases xs <;> rfl
    obtain ⟨sum, folded, -, contains⟩ := foldlM_addComponent_contains (proper_point 0) inside
      (List.forall_mem_map.2 fun a _ => proper_point a) center
    refine ⟨sum, ?_, mem_members.1 ?_⟩
    · rw [quadratic]
      simp only
      rw [quadraticRange_eq, head]
      exact folded
    · have value : halfSquare (subtract (argument xs 0) center) = a := Except.ok.inj valued
      rw [← value, first, halfSquare_subtract, ← zero_add (List.sum _)]
      exact contains 0 (mem_point.2 rfl)

end Sample

/-! ## Objectives -/

namespace Registry

section

variable [Scalar α] (r : Registry α) (m : Memory α)

def boxOf (box : List (Interval α)) (v : Variable α) : List (Interval α) :=
  if v.isConstant then (m.load v.storage).map point else (box.drop v.globalIndex).take v.userDimension

omit [Scalar α] in
def pointOf (x : List α) (v : Variable α) : List α :=
  if v.isConstant then m.load v.storage else (x.drop v.globalIndex).take v.userDimension

def rangeAt (box : List (Interval α)) (b : Binding α) : Except (Fault α) (Interval α) :=
  b.term.range ((r.arguments b).map (boxOf m box))

def valueAt (x : List α) (b : Binding α) : Except (Fault α) α :=
  ((b.term.evaluate .value ((r.arguments b).map (pointOf m x))).run .zero).1

end

variable [ExactField α] {r : Registry α} {m : Memory α} {box box' : List (Interval α)} {x : List α}

theorem proper_boxOf (proper : ∀ i ∈ box, i.Proper) (b : Binding α) :
    ∀ part ∈ (r.arguments b).map (boxOf m box), ∀ i ∈ part, i.Proper := by
  refine List.forall_mem_map.2 fun v _ i member => ?_
  unfold boxOf at member
  split at member
  · obtain ⟨a, -, rfl⟩ := List.mem_map.1 member
    exact proper_point a
  · exact proper i (List.mem_of_mem_drop (List.mem_of_mem_take member))

theorem within_boxOf (within : List.Forall₂ Within box box') (b : Binding α) :
    List.Forall₂ (List.Forall₂ Within) ((r.arguments b).map (boxOf m box))
      ((r.arguments b).map (boxOf m box')) := by
  rw [List.forall₂_map_left_iff, List.forall₂_map_right_iff, List.forall₂_same]
  intro v _
  simp only [boxOf]
  split
  · exact List.forall₂_same.2 fun i _ => within_refl i
  · exact List.forall₂_take _ (List.forall₂_drop _ within)

theorem point_within_boxOf (inside : List.Forall₂ (fun a i => a ∈ i.members) x box) (b : Binding α) :
    List.Forall₂ (List.Forall₂ Within) (((r.arguments b).map (pointOf m x)).map fun part => part.map point)
      ((r.arguments b).map (boxOf m box)) := by
  rw [List.map_map, List.forall₂_map_left_iff, List.forall₂_map_right_iff, List.forall₂_same]
  intro v _
  simp only [Function.comp_apply, boxOf, pointOf]
  split
  · exact List.forall₂_same.2 fun i _ => within_refl i
  · rw [List.forall₂_map_left_iff]
    exact List.forall₂_take _ (List.forall₂_drop _ (inside.imp fun _ _ => within_of_mem))

theorem totalRange_eq (plain : ∀ v ∈ r.vars, v.isConstant = false → v.change = none)
    (inclusive : ∀ b ∈ r.terms, b.term.Inclusive) (proper : ∀ i ∈ box, i.Proper) :
    r.totalRange m box = (point r.constant).plus <$> r.terms.mapM (r.rangeAt m box) := by
  have adds (total : Interval α) (b : Binding α) :
      r.addRange m box total b = (do total.add (← r.rangeAt m box b)) := by
    have arguments : (r.arguments b).mapM (argumentRange m box) = .ok ((r.arguments b).map (boxOf m box)) := by
      refine mapM_eq_ok fun v argument => ?_
      rw [argumentRange, boxOf]
      cases constant : v.isConstant with
      | true => rfl
      | false => simp [plain v (mem_vars argument) constant]
    rw [addRange, arguments]
    rfl
  rw [totalRange, funext fun total => funext (adds total)]
  exact foldlM_add (fun b member i bounded =>
    (inclusive b member).proper _ i (proper_boxOf proper b) bounded) (proper_point r.constant)

/-! ## Values -/

variable (wf : r.WellFormed) (plain : ∀ v ∈ r.vars, v.isConstant = false → v.change = none)
  (lengths : ∀ v ∈ r.vars, v.isConstant = true → (m.load v.storage).length = v.userDimension)
  (size : x.length = r.scalars)

include wf plain lengths size

omit [ExactField α] in
theorem length_pointOf {v : Variable α} (member : v ∈ r.vars) : (pointOf m x v).length = v.userDimension := by
  rw [pointOf]
  cases constant : v.isConstant with
  | true => exact lengths v member constant
  | false =>
      have last := wf.tiles_free.le_stop (List.mem_filter.2 ⟨member, by simp [constant]⟩)
      rw [(wf.vars v member).unchanged (plain v member constant)] at last
      simp only [Bool.false_eq_true, ↓reduceIte, List.length_take, List.length_drop]
      omega

omit [ExactField α] in
theorem localValue_eq_pointOf {v : Variable α} (member : v ∈ r.vars) :
    localValue m x v = .ok (pointOf m x v) := by
  have length := length_pointOf wf plain lengths size member
  have filled := fit_self (pointOf m x v)
  rw [length] at filled
  rw [localValue]
  cases constant : v.isConstant with
  | true =>
      rw [pointOf, constant] at filled ⊢
      exact filled
  | false =>
      rw [userPart, plain v member constant]
      rw [pointOf, constant] at filled ⊢
      exact filled

omit [ExactField α] in
theorem pointLocals_eq_pointOf : r.pointLocals m (some x) = .ok (r.vars.map (pointOf m x)) :=
  mapM_eq_ok fun _ member => localValue_eq_pointOf wf plain lengths size member

omit wf plain lengths size in
theorem jet_pointOf (r : Registry α) (m : Memory α) (x : List α) (b : Binding α) :
    (jet .value (r.vars.map (pointOf m x)) b).1 = r.valueAt m x b := by
  have arguments : Registry.seen (r.vars.map (pointOf m x)) b.positions =
      (r.arguments b).map (pointOf m x) := by
    simp [Registry.seen, Registry.arguments, List.map_filterMap]
  rw [jet, arguments, valueAt]

theorem valueMeaning_eq_sum {values : List α} (valued : r.terms.mapM (r.valueAt m x) = .ok values) :
    r.valueMeaning m (some x) = .ok (r.constant + values.sum) := by
  obtain ⟨value, each, rfl⟩ : ∃ value, (∀ b ∈ r.terms, r.valueAt m x b = .ok (value b)) ∧
      values = r.terms.map value := by
    have each : ∀ b ∈ r.terms, r.valueAt m x b = .ok (((r.valueAt m x b).toOption).getD 0) := by
      intro b member
      obtain ⟨a, here⟩ := mapM_ok_each valued member
      rw [here]
      rfl
    exact ⟨_, each, Except.ok.inj (valued.symm.trans (mapM_eq_ok each))⟩
  have total := valueMeaning_eq (r := r) (m := m) (x := x) {
    point := pointOf m x
    value
    derivatives := fun b => ((b.term.evaluate .value ((r.arguments b).map (pointOf m x))).run .zero).2
    carry := fun _ _ => []
    seen := fun v member => localValue_eq_pointOf wf plain lengths size member
    evaluated := fun b member => Prod.ext (each b member) rfl
    carried := fun derived => absurd rfl derived } size
  exact total

theorem fault?_valueMeaning :
    fault? (r.valueMeaning m (some x)) = fault? (r.terms.mapM (r.valueAt m x)) := by
  have ready : (Query.value (some x)).Ready r m .value (r.vars.map (pointOf m x)) x :=
    .value (by simp [checkPoint, size]) (pointLocals_eq_pointOf wf plain lengths size)
  have found := Query.fault?_meaning wf ready
  have each (b : Binding α) : r.bindingFault? .value (r.vars.map (pointOf m x)) x b =
      fault? (r.valueAt m x b) := by
    rw [bindingFault?, ← jet_pointOf]
    rcases jet .value (r.vars.map (pointOf m x)) b with ⟨fault | a, filled⟩ <;> rfl
  rw [Query.meaning, fault?_map, funext each, ← fault?_mapM] at found
  exact found

omit [ExactField α] in
theorem pointOf_fits {b : Binding α} (member : b ∈ r.terms) :
    ((r.arguments b).map (pointOf m x)).length = b.term.arity ∧
      ∀ k part, ((r.arguments b).map (pointOf m x))[k]? = some part →
        b.term.dimension k = .ok (part.length : Int) := by
  have fits := wf.terms b member
  constructor
  · rw [List.length_map, fits.length_arguments, fits.arity]
  · intro k part found
    rw [List.getElem?_map, fits.getElem?_arguments] at found
    obtain ⟨v, argument, rfl⟩ := Option.map_eq_some_iff.1 found
    obtain ⟨i, at_k, at_i⟩ := Option.bind_eq_some_iff.1 argument
    obtain ⟨w, at_i', declares⟩ := fits.registered at_k
    cases at_i.symm.trans at_i'
    rw [length_pointOf wf plain lengths size (List.mem_of_getElem? at_i), declares]

end Registry

theorem forall₂_of_common {β γ δ : Type} {P : β → γ → Prop} {Q : β → δ → Prop} {R : γ → δ → Prop} {l : List β}
    {cs : List γ} {ds : List δ} (first : List.Forall₂ P l cs) (second : List.Forall₂ Q l ds)
    (related : ∀ b ∈ l, ∀ c d, P b c → Q b d → R c d) : List.Forall₂ R cs ds := by
  induction first generalizing ds with
  | nil =>
      cases second
      exact .nil
  | cons here _ ih =>
      obtain ⟨related_here, related⟩ := List.forall_mem_cons.1 related
      cases second with
      | cons there rest => exact .cons (related_here _ _ here there) (ih rest related)

namespace Objective

variable [ExactField α] {f : Objective α} {m : Memory α} {box : List (Interval α)}

/-- What the bounds over a box say: there are bounds unless a term has none, they are wider over wider boxes, and
they hold the values in the box. -/
structure Encloses (f : Objective α) (m : Memory α) (box : List (Interval α)) : Prop where
  bounded : (∃ i, (f.ask m (.range box)).1 = .ok (.range i) ∧ i.Proper) ∨
    ∃ b ∈ f.terms, ∃ fault, f.rangeAt m box b = .error fault ∧ (f.ask m (.range box)).1 = .error fault ∧
      ∀ lower upper, fault ≠ .emptyInterval lower upper
  isotone : ∀ box' i i', List.Forall₂ Within box box' → (∀ j ∈ box', j.Proper) →
    (f.ask m (.range box)).1 = .ok (.range i) → (f.ask m (.range box')).1 = .ok (.range i') → i.Within i'
  values : (∀ v ∈ f.vars, v.isConstant = true → (m.load v.storage).length = v.userDimension) →
    ∀ x, List.Forall₂ (fun a j => j.contains a = true) x box →
      (∃ a, (f.ask m (.value (some x))).1 = .ok (.number a) ∧
        ∀ i, (f.ask m (.range box)).1 = .ok (.range i) → i.contains a = true) ∨
      ∃ b ∈ f.terms, ∃ fault, f.valueAt m x b = .error fault ∧ (f.ask m (.value (some x))).1 = .error fault

variable (reached : Reachable f) (plain : ∀ v ∈ f.vars, v.isConstant = false → v.change = none)
  (inclusive : ∀ b ∈ f.terms, b.term.Inclusive)

include reached plain inclusive

theorem ask_range (size : box.length = f.scalars) (proper : ∀ i ∈ box, i.Proper) :
    (f.ask m (.range box)).1 =
      (fun is => Answer.range ((point f.constant).plus is)) <$> f.terms.mapM (f.rangeAt m box) := by
  rw [reached.ask_eq, Query.meaning, Registry.rangeMeaning, if_neg (not_not_intro size),
    Registry.totalRange_eq plain inclusive proper]
  cases f.terms.mapM (f.rangeAt m box) <;> rfl

theorem ranges_of_ask (size : box.length = f.scalars) (proper : ∀ i ∈ box, i.Proper) {i : Interval α}
    (asked : (f.ask m (.range box)).1 = .ok (.range i)) :
    ∃ is, List.Forall₂ (fun b j => f.rangeAt m box b = .ok j) f.terms is ∧ i = (point f.constant).plus is := by
  rw [ask_range reached plain inclusive size proper] at asked
  obtain ⟨is, bounded, same⟩ := map_eq_ok.1 asked
  cases same
  exact ⟨is, mapM_ok_iff.1 bounded, rfl⟩

theorem bounded_or_fault (size : box.length = f.scalars) (proper : ∀ i ∈ box, i.Proper) :
    (∃ i, (f.ask m (.range box)).1 = .ok (.range i) ∧ i.Proper) ∨
      ∃ b ∈ f.terms, ∃ fault, f.rangeAt m box b = .error fault ∧ (f.ask m (.range box)).1 = .error fault ∧
        ∀ lower upper, fault ≠ .emptyInterval lower upper := by
  rw [ask_range reached plain inclusive size proper]
  cases bounded : f.terms.mapM (f.rangeAt m box) with
  | ok is =>
      refine .inl ⟨_, rfl, plus_proper (fun i member => ?_) (proper_point _)⟩
      obtain ⟨b, known, here⟩ := exists_of_mem_right (mapM_ok_iff.1 bounded) member
      exact (inclusive b known).proper _ i (Registry.proper_boxOf proper b) here
  | error fault =>
      have found := fault?_mapM (f.rangeAt m box) f.terms
      rw [bounded] at found
      obtain ⟨b, known, here⟩ := List.exists_of_findSome?_eq_some found.symm
      have failed := fault?_eq_some.1 here
      refine .inr ⟨b, known, fault, failed, rfl, fun lower upper empty => ?_⟩
      exact (inclusive b known).notEmpty _ lower upper (Registry.proper_boxOf proper b) (empty ▸ failed)

theorem isotone_range (size : box.length = f.scalars) (proper : ∀ i ∈ box, i.Proper)
    {box' : List (Interval α)} {i i' : Interval α} (within : List.Forall₂ Within box box')
    (proper' : ∀ j ∈ box', j.Proper) (asked : (f.ask m (.range box)).1 = .ok (.range i))
    (asked' : (f.ask m (.range box')).1 = .ok (.range i')) : i.Within i' := by
  have size' : box'.length = f.scalars := within.length_eq.symm.trans size
  obtain ⟨is, ranges, rfl⟩ := ranges_of_ask reached plain inclusive size proper asked
  obtain ⟨is', ranges', rfl⟩ := ranges_of_ask reached plain inclusive size' proper' asked'
  refine plus_within (forall₂_of_common ranges ranges' fun b member j j' here there => ?_) (within_refl _)
  exact (inclusive b member).isotone _ _ j j' (Registry.proper_boxOf proper b) (Registry.proper_boxOf proper' b)
    (Registry.within_boxOf within b) here there

theorem contains_value (size : box.length = f.scalars) (proper : ∀ i ∈ box, i.Proper)
    (lengths : ∀ v ∈ f.vars, v.isConstant = true → (m.load v.storage).length = v.userDimension) {x : List α}
    (inside : List.Forall₂ (fun a j => a ∈ j.members) x box) {values : List α}
    (valued : f.terms.mapM (f.valueAt m x) = .ok values) {i : Interval α}
    (asked : (f.ask m (.range box)).1 = .ok (.range i)) : f.constant + values.sum ∈ i.members := by
  obtain ⟨is, ranges, rfl⟩ := ranges_of_ask reached plain inclusive size proper asked
  refine plus_mem (forall₂_of_common (mapM_ok_iff.1 valued) ranges fun b member a j here there => ?_)
    (mem_point.2 rfl)
  obtain ⟨arity, dimensions⟩ := Registry.pointOf_fits reached.wellFormed plain lengths
    (inside.length_eq.trans size) member
  obtain ⟨narrow, bounded, holds⟩ := (inclusive b member).wider _ a arity dimensions here
  have within := (inclusive b member).isotone _ _ narrow j
    (List.forall_mem_map.2 fun part _ => List.forall_mem_map.2 fun a _ => proper_point a)
    (Registry.proper_boxOf proper b) (Registry.point_within_boxOf inside b) bounded there
  exact within.subset (mem_members.2 holds)

/-- Of an objective whose terms have inclusive bounds, the bounds over boxes are inclusive. Half squared distances
have inclusive bounds. -/
theorem Reachable.range_encloses_values (size : box.length = f.scalars) (proper : ∀ i ∈ box, i.Proper) :
    f.Encloses m box ∧ ∀ (_ : Numeral α) (center : List α), (Sample.quadratic center).Inclusive := by
  refine ⟨⟨bounded_or_fault reached plain inclusive size proper, fun box' i i' => ?isotone, ?values⟩,
    fun _ => Sample.inclusive_quadratic⟩
  case isotone => exact isotone_range reached plain inclusive size proper
  case values =>
    intro lengths x inside
    have inside : List.Forall₂ (fun a j => a ∈ j.members) x box := inside.imp fun _ _ => mem_members.2
    have size' : x.length = f.scalars := inside.length_eq.trans size
    cases valued : f.terms.mapM (f.valueAt m x) with
    | ok values =>
        have value := Registry.valueMeaning_eq_sum reached.wellFormed plain lengths size' valued
        refine .inl ⟨f.constant + values.sum, ?_, fun i asked => mem_members.1 ?_⟩
        · rw [reached.ask_eq, Query.meaning, value, map_ok]
        · exact contains_value reached plain inclusive size proper lengths inside valued asked
    | error fault =>
        have faults := Registry.fault?_valueMeaning reached.wellFormed plain lengths size'
        rw [valued] at faults
        have found := fault?_mapM (f.valueAt m x) f.terms
        rw [valued] at found
        obtain ⟨b, member, here⟩ := List.exists_of_findSome?_eq_some found.symm
        refine .inr ⟨b, member, fault, fault?_eq_some.1 here, ?_⟩
        rw [reached.ask_eq, Query.meaning, fault?_eq_some.1 faults]
        rfl

omit reached plain inclusive

@[reducible]
def fractions : Numeral ℚ := ⟨toString, fun _ => none⟩

def distance (center : List ℚ) : Term ℚ := @Sample.quadratic ℚ _ fractions center

def oneAndTwo : Memory ℚ where
  objects := [.array .double [1] 0 0, .array .double [2] 1 0]
  blocks := [[0], [2, 1]]

def oneAndOne : Memory ℚ where
  objects := [.array .double [1] 0 0, .array .double [1] 1 0]
  blocks := [[0], [2]]

def twoDistances : Objective ℚ :=
  let apply (f : Objective ℚ) (c : Mutation ℚ) := (c.edit.run oneAndTwo f).2
  [.addTerm (.term (distance [1])) [⟨0⟩], .addTerm (.term (distance [0, 0])) [⟨1⟩],
    .setConstant ⟨1⟩ true].foldl apply (ofThreads 2)

theorem reachable_twoDistances : Reachable twoDistances :=
  .step (.step (.step (.new (show new? 2 = .ok (ofThreads 2) from rfl))
    (.mutate (c := .addTerm (.term (distance [1])) [⟨0⟩]) trivial oneAndTwo))
    (.mutate (c := .addTerm (.term (distance [0, 0])) [⟨1⟩]) trivial oneAndTwo))
    (.mutate (c := .setConstant ⟨1⟩ true) trivial oneAndTwo)

theorem vars_twoDistances : twoDistances.vars = [⟨⟨0⟩, 1, 1, 0, false, none⟩, ⟨⟨1⟩, 2, 2, 1, true, none⟩] := rfl

theorem terms_twoDistances : twoDistances.terms = [⟨distance [1], [0]⟩, ⟨distance [0, 0], [1]⟩] := rfl

theorem plain_twoDistances : ∀ v ∈ twoDistances.vars, v.isConstant = false → v.change = none := by
  rw [vars_twoDistances]
  simp

theorem inclusive_twoDistances : ∀ b ∈ twoDistances.terms, b.term.Inclusive := by
  rw [terms_twoDistances, List.forall_mem_cons, List.forall_mem_singleton]
  exact ⟨@Sample.inclusive_quadratic ℚ _ fractions [1], @Sample.inclusive_quadratic ℚ _ fractions [0, 0]⟩

theorem twoDistances_enclosed : ∃ a i, (twoDistances.ask oneAndTwo (.value (some [2]))).1 = .ok (.number a) ∧
    (twoDistances.ask oneAndTwo (.range [⟨0, 3⟩])).1 = .ok (.range i) ∧ i.contains a = true := by
  have proper : ∀ i ∈ [(⟨0, 3⟩ : Interval ℚ)], i.Proper :=
    List.forall_mem_singleton.2 (show (0 : ℚ) ≤ 3 by decide +kernel)
  have size : [(⟨0, 3⟩ : Interval ℚ)].length = twoDistances.scalars := rfl
  have lengths : ∀ v ∈ twoDistances.vars, v.isConstant = true →
      (oneAndTwo.load v.storage).length = v.userDimension := by
    rw [vars_twoDistances]
    decide
  have ranged : (twoDistances.ask oneAndTwo (.range [⟨0, 3⟩])).1.isOk = true := by decide +kernel
  have valued : (twoDistances.ask oneAndTwo (.value (some [2]))).1.isOk = true := by decide +kernel
  obtain ⟨⟨bounded, -, values⟩, -⟩ := Reachable.range_encloses_values reachable_twoDistances plain_twoDistances
    inclusive_twoDistances (m := oneAndTwo) size proper
  rcases bounded with ⟨i, asked, -⟩ | ⟨_, -, fault, -, failed, -⟩
  · rcases values lengths [2] (.cons (by decide +kernel) .nil) with ⟨a, value, holds⟩ | ⟨_, -, fault, -, failed⟩
    · exact ⟨a, i, value, asked, holds i asked⟩
    · rw [failed] at valued
      cases valued
  · rw [failed] at ranged
    cases ranged

def held (m : Memory ℚ) (box : List (Interval ℚ)) (x : List ℚ) : Option Bool :=
  match (twoDistances.ask m (.value (some x))).1, (twoDistances.ask m (.range box)).1 with
  | .ok value, .ok bounds => match value, bounds with
      | .number a, .range i => some (i.contains a)
      | _, _ => none
  | .error _, _ => none
  | .ok _, .error _ => none

/-- A constant array that was resized to a single number fills the variable where the value is evaluated, and does
not where the bounds are. -/
theorem twoDistances_not_enclosed : Reachable twoDistances ∧
    (∀ v ∈ twoDistances.vars, v.isConstant = false → v.change = none) ∧
    (∀ b ∈ twoDistances.terms, b.term.Inclusive) ∧ twoDistances.scalars = 1 ∧
    (⟨0, 3⟩ : Interval ℚ).contains 2 = true ∧ held oneAndOne [⟨0, 3⟩] [2] = some false :=
  ⟨reachable_twoDistances, plain_twoDistances, inclusive_twoDistances, rfl, by decide +kernel, by decide +kernel⟩

end Objective

end Descent
