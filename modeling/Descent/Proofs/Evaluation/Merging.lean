import Mathlib
import Descent.Proofs.Evaluation.Likeness
import Descent.Proofs.Evaluation.Sums
import Descent.Proofs.Registry.Merging

namespace Descent

variable {α : Type}

section

variable [ExactSums α] {β γ : Type} {x y z : Except (Fault α) α}

theorem foldlM_add (value : β → Except (Fault α) α) (l : List β) (start : α) :
    l.foldlM (fun total b => do return total + (← value b)) start =
      (start + ·.sum) <$> l.mapM value := by
  induction l generalizing start with
  | nil =>
      rw [List.foldlM_nil, List.mapM_nil]
      exact congrArg Except.ok (add_zero start).symm
  | cons b rest ih =>
      rw [List.foldlM_cons, List.mapM_cons]
      cases value b with
      | error fault => rfl
      | ok a =>
          refine (ih (start + a)).trans ?_
          simp only [ok_bind]
          cases rest.mapM value with
          | error fault => rfl
          | ok values => exact congrArg Except.ok (add_assoc start a values.sum)

theorem sum_mapM_flatMap (value : β → Except (Fault α) α) (parts : γ → List β) (l : List γ) :
    (List.sum <$> l.mapM fun c => List.sum <$> (parts c).mapM value) =
      List.sum <$> (l.flatMap parts).mapM value := by
  induction l with
  | nil => rfl
  | cons c rest ih =>
      rw [List.mapM_cons, List.flatMap_cons, List.mapM_append]
      cases (parts c).mapM value with
      | error fault => rfl
      | ok values =>
          simp only [map_ok, ok_bind]
          cases all : (rest.flatMap parts).mapM value with
          | error fault =>
              rw [all] at ih
              rw [map_eq_error.1 ih]
              rfl
          | ok others =>
              rw [all] at ih
              obtain ⟨sums, each, same⟩ := map_eq_ok.1 ih
              rw [each]
              exact congrArg Except.ok (by rw [List.sum_cons, List.sum_append, same])

theorem add_ok_comm {a : α} : (do return (← x) + (← y)) = (.ok a : Except (Fault α) α) ↔
    (do return (← y) + (← x)) = (.ok a : Except (Fault α) α) := by
  cases x with
  | error fault => cases y <;> exact ⟨nofun, nofun⟩
  | ok b =>
      cases y with
      | error fault => exact ⟨nofun, nofun⟩
      | ok c => exact Eq.congr_left (congrArg Except.ok (add_comm b c))

theorem add_values_assoc : (do return (← (do return (← x) + (← y))) + (← z) : Except (Fault α) α) =
    (do return (← x) + (← (do return (← y) + (← z)))) := by
  cases x with
  | error fault => rfl
  | ok a =>
      cases y with
      | error fault => rfl
      | ok b =>
          cases z with
          | error fault => rfl
          | ok c => exact congrArg Except.ok (add_assoc a b c)

end

def Term.standing [Scalar α] (t : Term α) (m : Memory α) (handles : List Handle) : Except (Fault α) α :=
  ((t.evaluate .value (handles.map m.load)).run .zero).1

namespace Registry

variable {r s t : Registry α} {m : Memory α}

def Filled (r : Registry α) (m : Memory α) : Prop :=
  ∀ v ∈ r.vars, (m.load v.storage).length = v.userDimension

theorem pointLocals_stored (filled : r.Filled m) :
    r.pointLocals m none = .ok (r.vars.map fun v => m.load v.storage) :=
  mapM_eq_ok fun v member => by
    rw [storedValue, ← filled v member]
    exact fit_self _

theorem jet_standing [Scalar α] (b : Binding α) : (jet .value (r.vars.map fun v => m.load v.storage) b).1 =
    b.term.standing m ((r.arguments b).map Variable.storage) := by
  rw [jet_map, Term.standing, List.map_map]
  rfl

theorem totalValue_chunkTotals [ExactSums α] (r : Registry α) (locals : List (List α)) :
    (r.totalValue <$> r.chunks.mapM fun chunk => chunkTotal locals (slice r.terms chunk)) =
      (r.constant + ·.sum) <$> r.terms.mapM fun b => (jet .value locals b).1 := by
  have chunk (bs : List (Binding α)) :
      chunkTotal locals bs = List.sum <$> bs.mapM fun b => (jet .value locals b).1 := by
    simp only [chunkTotal, foldlM_add, zero_add]
  have total : r.totalValue = fun values => r.constant + values.sum := funext r.totalValue_eq
  have parts := congrArg ((r.constant + ·) <$> ·)
    (sum_mapM_flatMap (fun b => (jet .value locals b).1) (slice r.terms) r.chunks)
  simp only [Functor.map_map, flatMap_chunks] at parts
  simp only [chunk, total]
  exact parts

theorem valueMeaning_standing [ExactSums α] (filled : r.Filled m) : r.valueMeaning m none =
    (r.constant + ·.sum) <$>
      r.terms.mapM fun b => b.term.standing m ((r.arguments b).map Variable.storage) := by
  simp only [valueMeaning, pointLocals_stored filled, ok_bind, totalValue_chunkTotals, jet_standing]

section

variable [Scalar α] (merged : Merged r s t)

include merged

theorem Merged.forall_vars {P : Variable α → Prop}
    (moved : ∀ v w : Variable α, w.storage = v.storage → w.userDimension = v.userDimension →
      w.change = v.change → P v → P w)
    (old : ∀ v ∈ r.vars, P v) (new : ∀ v ∈ s.vars, P v) : ∀ u ∈ t.vars, P u := by
  intro u member
  have outlined := List.mem_map_of_mem (f := Variable.unplaced) member
  rw [merged.vars, List.mem_append, List.mem_map, List.mem_map] at outlined
  obtain ⟨v, here, storage, dimension, change⟩ : ∃ v, P v ∧ v.storage = u.storage ∧
      v.userDimension = u.userDimension ∧ v.change = u.change := by
    rcases outlined with ⟨v, member, same⟩ | ⟨v, fresh, same⟩
    · exact ⟨v, old v member, (congrArg Variable.storage same :), (congrArg Variable.userDimension same :),
        (congrArg Variable.change same :)⟩
    · exact ⟨v, new v (List.mem_filter.1 fresh).1, (congrArg Variable.storage same :),
        (congrArg Variable.userDimension same :), (congrArg Variable.change same :)⟩
  exact moved v u storage.symm dimension.symm change.symm here

theorem Merged.filled (old : r.Filled m) (new : s.Filled m) : t.Filled m :=
  merged.forall_vars (fun v w storage dimension _ here => by rw [storage, dimension, here]) old new

theorem Merged.mergeable (old : ∀ v ∈ r.vars, v.Mergeable m) (new : ∀ v ∈ s.vars, v.Mergeable m) :
    ∀ u ∈ t.vars, u.Mergeable m := by
  refine merged.forall_vars (fun v w storage dimension change here => ?_) old new
  exact ⟨change.trans here.plain, by rw [storage, dimension]; exact here.stored⟩

end

theorem Merged.valueMeaning_eq [ExactSums α] (merged : Merged r s t) (filled : r.Filled m)
    (filled' : s.Filled m) : t.valueMeaning m none =
      (do return (← r.valueMeaning m none) + (← s.valueMeaning m none)) := by
  rw [valueMeaning_standing filled, valueMeaning_standing filled',
    valueMeaning_standing (merged.filled filled filled'), merged.terms, List.mapM_append, merged.constant]
  have old : (r.terms.mapM fun b => b.term.standing m ((t.arguments b).map Variable.storage)) =
      r.terms.mapM fun b => b.term.standing m ((r.arguments b).map Variable.storage) :=
    mapM_congr (List.forall₂_same.2 fun b member => by rw [merged.kept b member])
  have new : ((s.terms.map (Binding.rebound (t.vars.map Variable.storage) s)).mapM fun b =>
        b.term.standing m ((t.arguments b).map Variable.storage)) =
      s.terms.mapM fun b => b.term.standing m ((s.arguments b).map Variable.storage) :=
    mapM_congr (List.forall₂_map_left_iff.2 (List.forall₂_same.2 fun b member => by
      rw [merged.bound b member, Binding.rebound]))
  rw [old, new]
  cases r.terms.mapM fun b => b.term.standing m ((r.arguments b).map Variable.storage) with
  | error fault => rfl
  | ok values =>
      cases s.terms.mapM fun b => b.term.standing m ((s.arguments b).map Variable.storage) with
      | error fault => rfl
      | ok others =>
          refine congrArg Except.ok ?_
          simp only [List.sum_append]
          exact add_add_add_comm r.constant s.constant values.sum others.sum

end Registry

namespace Objective

def standing [Scalar α] (f : Objective α) (m : Memory α) : Except (Fault α) α :=
  (f.evaluating (f.toRegistry.value m none)).1

theorem Reachable.standing_eq [Scalar α] {f : Objective α} (reached : Reachable f) (m : Memory α) :
    f.standing m = f.valueMeaning m none := by
  obtain ⟨w, run, -⟩ := Registry.run_value (m := m) reached.coherent none
  simp only [standing, evaluating, run]

def mergeAt [Scalar α] (m : Memory α) (i j : Nat) (fs : List (Objective α)) :
    Option (Except (Fault α) Unit × List (Objective α)) := do
  let f ← fs[i]?
  let g ← fs[j]?
  let (result, h) := (merge g.toRegistry).run m f
  return (result, fs.set i h)

theorem Reachable.exists_merge [Scalar α] {f g : Objective α} {m : Memory α} (reached : Reachable f)
    (reached' : Reachable g) (ready : ∀ v ∈ f.vars, v.Mergeable m) (ready' : ∀ v ∈ g.vars, v.Mergeable m) :
    ∃ h, (merge g.toRegistry).run m f = (.ok (), h) ∧ Reachable h ∧
      Registry.Merged f.toRegistry g.toRegistry h.toRegistry := by
  obtain ⟨h, ran, merged⟩ := Objective.exists_merge reached.wellFormed ready reached'.wellFormed ready'
  refine ⟨h, ran, ?_, merged⟩
  have next := reached.step (.mutate (c := .add (.objective g.toRegistry)) trivial m)
  rwa [show (Mutation.add (.objective g.toRegistry)).edit.run m f = (.ok (), h) from ran] at next

section

variable [ExactSums α] {f g k h : Objective α} {m : Memory α} (reached : Reachable f)
  (reached' : Reachable g)

include reached reached'

theorem Reachable.standing_merged (reached'' : Reachable h)
    (merged : Registry.Merged f.toRegistry g.toRegistry h.toRegistry) (filled : f.Filled m)
    (filled' : g.Filled m) :
    h.standing m = (do return (← f.standing m) + (← g.standing m)) := by
  rw [reached''.standing_eq, reached.standing_eq, reached'.standing_eq]
  exact merged.valueMeaning_eq filled filled'

/-- While the arrays have their lengths, objectives without changes of variables can be added to each other and
to themselves. The sum has the variables and the terms of both, its value is the sum of the values, and neither
the order nor the grouping of several sums matters to the value. -/
theorem Reachable.merge_adds (ready : ∀ v ∈ f.vars, v.Mergeable m) (ready' : ∀ v ∈ g.vars, v.Mergeable m)
    {fs : List (Objective α)} {i j : Nat} (at_i : fs[i]? = some f) (at_j : fs[j]? = some g) :
    ∃ h, mergeAt m i j fs = some (.ok (), fs.set i h) ∧ (j ≠ i → (fs.set i h)[j]? = some g) ∧
      Registry.Merged f.toRegistry g.toRegistry h.toRegistry ∧
      (∀ m', f.Filled m' → g.Filled m' →
        h.standing m' = (do return (← f.standing m') + (← g.standing m'))) ∧
      (∃ h', (merge f.toRegistry).run m g = (.ok (), h') ∧
        ∀ m', f.Filled m' → g.Filled m' → ∀ a, h.standing m' = .ok a ↔ h'.standing m' = .ok a) ∧
      ∀ k, Reachable k → (∀ v ∈ k.vars, v.Mergeable m) → ∃ h₁ h₂ h₃,
        (merge k.toRegistry).run m h = (.ok (), h₁) ∧ (merge k.toRegistry).run m g = (.ok (), h₂) ∧
          (merge h₂.toRegistry).run m f = (.ok (), h₃) ∧
          ∀ m', f.Filled m' → g.Filled m' → k.Filled m' → h₁.standing m' = h₃.standing m' := by
  obtain ⟨h, ran, reached_h, merged⟩ := reached.exists_merge reached' ready ready'
  refine ⟨h, ?_, fun other => ?_, merged, fun m' filled filled' => ?_, ?_, fun k reached_k ready_k => ?_⟩
  · simp only [mergeAt, at_i, at_j, Option.bind_eq_bind, Option.bind_some, ran]
    rfl
  · rw [List.getElem?_set_ne (Ne.symm other), at_j]
  · exact reached.standing_merged reached' reached_h merged filled filled'
  · obtain ⟨h', ran', reached_h', merged'⟩ := reached'.exists_merge reached ready' ready
    refine ⟨h', ran', fun m' filled filled' a => ?_⟩
    rw [reached.standing_merged reached' reached_h merged filled filled',
      reached'.standing_merged reached reached_h' merged' filled' filled]
    exact add_ok_comm
  · obtain ⟨h₁, ran₁, reached₁, merged₁⟩ :=
      reached_h.exists_merge reached_k (merged.mergeable ready ready') ready_k
    obtain ⟨h₂, ran₂, reached₂, merged₂⟩ := reached'.exists_merge reached_k ready' ready_k
    obtain ⟨h₃, ran₃, reached₃, merged₃⟩ :=
      reached.exists_merge reached₂ ready (merged₂.mergeable ready' ready_k)
    refine ⟨h₁, h₂, h₃, ran₁, ran₂, ran₃, fun m' filled filled' filled'' => ?_⟩
    rw [reached_h.standing_merged reached_k reached₁ merged₁ (merged.filled filled filled') filled'',
      reached.standing_merged reached' reached_h merged filled filled',
      reached.standing_merged reached₂ reached₃ merged₃ filled (merged₂.filled filled' filled''),
      reached'.standing_merged reached_k reached₂ merged₂ filled' filled'']
    exact add_values_assoc

end

def twoThreeFive : Memory ℚ where
  objects := [.array .double [1] 0 0, .array .double [1] 1 0, .array .double [1] 2 0]
  blocks := [[2], [3], [5]]

def productTerm : Candidate ℚ := .term (Sample.polynomial [1, 1] [(1, [(0, 0), (1, 0)])])

def firstProduct : Objective ℚ :=
  ((Mutation.addTerm productTerm [⟨0⟩, ⟨1⟩]).edit.run twoThreeFive (ofThreads 2)).2

def secondProduct : Objective ℚ :=
  let apply (f : Objective ℚ) (c : Mutation ℚ) := (c.edit.run twoThreeFive f).2
  [.addTerm productTerm [⟨2⟩, ⟨1⟩], .setConstant ⟨2⟩ true, .add (.number 7)].foldl apply (ofThreads 3)

theorem reachable_firstProduct : Reachable firstProduct :=
  .step (.new (show new? 2 = .ok (ofThreads 2) from rfl)) (.mutate (c := .addTerm _ _) trivial twoThreeFive)

theorem reachable_secondProduct : Reachable secondProduct :=
  .step (.step (.step (.new (show new? 3 = .ok (ofThreads 3) from rfl))
    (.mutate (c := .addTerm _ _) trivial twoThreeFive))
    (.mutate (c := .setConstant ⟨2⟩ true) trivial twoThreeFive))
    (.mutate (c := .add (.number 7)) trivial twoThreeFive)

theorem products_merged :
    (∃ h, mergeAt twoThreeFive 0 1 [firstProduct, secondProduct] = some (.ok (), [h, secondProduct]) ∧
      h.vars.map Variable.storage = [⟨0⟩, ⟨1⟩, ⟨2⟩] ∧ h.terms.map Binding.positions = [[0, 1], [2, 1]] ∧
      h.standing twoThreeFive = .ok 28) ∧
    ∃ h, mergeAt twoThreeFive 0 0 [firstProduct] = some (.ok (), [h]) ∧ h.standing twoThreeFive = .ok 12 := by
  have vars : firstProduct.vars = [⟨⟨0⟩, 1, 1, 0, false, none⟩, ⟨⟨1⟩, 1, 1, 1, false, none⟩] := rfl
  have vars' : secondProduct.vars = [⟨⟨2⟩, 1, 1, 1, true, none⟩, ⟨⟨1⟩, 1, 1, 0, false, none⟩] := rfl
  have ready : ∀ v ∈ firstProduct.vars, v.Mergeable twoThreeFive := by
    rw [vars, List.forall_mem_cons, List.forall_mem_singleton]
    exact ⟨⟨rfl, 0, 0, rfl⟩, rfl, 1, 0, rfl⟩
  have ready' : ∀ v ∈ secondProduct.vars, v.Mergeable twoThreeFive := by
    rw [vars', List.forall_mem_cons, List.forall_mem_singleton]
    exact ⟨⟨rfl, 2, 0, rfl⟩, rfl, 1, 0, rfl⟩
  have filled : firstProduct.Filled twoThreeFive := by
    rw [Registry.Filled, vars, List.forall_mem_cons, List.forall_mem_singleton]
    exact ⟨rfl, rfl⟩
  have filled' : secondProduct.Filled twoThreeFive := by
    rw [Registry.Filled, vars', List.forall_mem_cons, List.forall_mem_singleton]
    exact ⟨rfl, rfl⟩
  have six : firstProduct.standing twoThreeFive = .ok 6 :=
    congrArg Except.ok (show (0 : ℚ) + (0 + (0 + 1 * 2 * 3)) = 6 by norm_num)
  have twentyTwo : secondProduct.standing twoThreeFive = .ok 22 :=
    congrArg Except.ok (show (0 : ℚ) + 7 + (0 + (0 + 1 * 5 * 3)) = 22 by norm_num)
  have first : [firstProduct, secondProduct][0]? = some firstProduct := rfl
  have second : [firstProduct, secondProduct][1]? = some secondProduct := rfl
  have only : [firstProduct][0]? = some firstProduct := rfl
  obtain ⟨h, ran, -, merged, value, -⟩ := Reachable.merge_adds reachable_firstProduct
    reachable_secondProduct ready ready' first second
  obtain ⟨d, ran_d, -, -, value_d, -⟩ := Reachable.merge_adds reachable_firstProduct
    reachable_firstProduct ready ready only only
  have storages : h.vars.map Variable.storage = [⟨0⟩, ⟨1⟩, ⟨2⟩] :=
    Registry.storages_of_newcomers merged.vars
  have sum : (6 : ℚ) + 22 = 28 := by norm_num
  have double : (6 : ℚ) + 6 = 12 := by norm_num
  refine ⟨⟨h, ran, storages, ?_, ?_⟩, d, ran_d, ?_⟩
  · rw [merged.terms, storages]
    rfl
  · rw [value _ filled filled', six, twentyTwo]
    exact congrArg Except.ok sum
  · rw [value_d _ filled filled, six]
    exact congrArg Except.ok double

end Objective

end Descent
