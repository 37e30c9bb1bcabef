import Mathlib
import Descent.Proofs.Evaluation.Hessians
import Descent.Proofs.Evaluation.Reports
import Descent.Proofs.Evaluation.Transfer
import Descent.Proofs.ExactField

namespace Descent

open Matrix

variable {α : Type} {n : Nat}

def Variable.row [Zero α] [One α] (v : Variable α) (i : Nat) (s : Fin n) : α :=
  if v.isConstant = false ∧ v.globalIndex + i = s.val then 1 else 0

theorem sum_mapIdx {β γ : Type} [AddCommMonoid γ] (f : Nat → β → γ) (l : List β) :
    (l.mapIdx f).sum = ∑ k : Fin l.length, f k (l.get k) := by
  rw [List.mapIdx_eq_ofFn, List.sum_ofFn]

theorem sum_map_range {β : Type} [AddCommMonoid β] (f : Nat → β) (size : Nat) :
    ((List.range size).map f).sum = ∑ i ∈ Finset.range size, f i := rfl

namespace Registry

variable [ExactField α] {r : Registry α} {m : Memory α} {request : Request} {x : Fin r.scalars → α}
  {b : Binding α} {v : Variable α}

def fixedPart (m : Memory α) (v : Variable α) (i : Nat) : α :=
  if v.isConstant then (outcome (storedValue m v)).getD i 0 else 0

theorem row_dotProduct (free : v.isConstant = false) {i : Nat} (inside : v.globalIndex + i < n) (x : Fin n → α) :
    v.row i ⬝ᵥ x = x ⟨v.globalIndex + i, inside⟩ := by
  rw [dotProduct, Finset.sum_eq_single ⟨v.globalIndex + i, inside⟩]
  · simp [Variable.row, free]
  · intro s _ other
    have apart : v.globalIndex + i ≠ s.val := fun same => other (Fin.ext same.symm)
    simp [Variable.row, apart]
  · exact fun absent => absurd (Finset.mem_univ _) absent

theorem Report.length_point (report : Report r m (List.ofFn x) request) (member : v ∈ r.vars) :
    (report.point v).length = v.userDimension := by
  have seen := report.seen v member
  cases constant : v.isConstant with
  | true =>
      rw [localValue_of_constant constant] at seen
      exact length_of_fit seen
  | false =>
      rw [localValue_of_free constant] at seen
      obtain ⟨values, -, filled⟩ := bind_eq_ok.1 seen
      exact length_of_fit filled

theorem Report.point_eq (report : Report r m (List.ofFn x) request) (wf : r.WellFormed)
    (unchanged : ∀ v ∈ r.vars, v.isConstant = false → v.change = none) (member : v ∈ r.vars) {i : Nat}
    (inside : i < v.userDimension) : (report.point v).getD i 0 = fixedPart m v i + v.row i ⬝ᵥ x := by
  have seen := report.seen v member
  cases constant : v.isConstant with
  | true =>
      have none : v.row i ⬝ᵥ x = 0 := by simp [dotProduct, Variable.row, constant]
      rw [localValue_of_constant constant] at seen
      rw [fixedPart, constant, if_pos rfl, seen, outcome, none, add_zero]
  | false =>
      have size : (List.ofFn x).length = r.scalars := List.length_ofFn
      have change := unchanged v member constant
      have last := wf.tiles_free.le_stop (List.mem_filter.2 ⟨member, by simp [constant]⟩)
      have same := (wf.vars v member).unchanged change
      have scalar : v.globalIndex + i < r.scalars := by omega
      have part := Except.ok.inj (seen.symm.trans (wf.localValue_eq size member constant change))
      rw [part, fixedPart, constant, if_neg Bool.false_ne_true, zero_add, row_dotProduct constant scalar]
      have within : i < v.solverDimension := by omega
      simp [solverPart, List.getD_eq_getElem?_getD, within, scalar]

theorem offsetPart_map_range (free : v.isConstant = false) (f : Nat → α) (size : Nat) (s : Fin n) :
    offsetPart v.globalIndex ((List.range size).map f) s.val = ∑ i ∈ Finset.range size, f i * v.row i s := by
  have terms (i : Nat) : f i * v.row i s = if v.globalIndex + i = s.val then f i else 0 := by
    simp [Variable.row, free]
  simp only [terms]
  rw [← sum_map_range, sum_range_offset, offsetPart, getD_map_range]
  by_cases above : v.globalIndex ≤ s.val
  · have within : s.val - v.globalIndex < size ↔ s.val < v.globalIndex + size := by omega
    simp [above, within]
  · simp [above]

theorem row_eq_zero (constant : v.isConstant = true) (i : Nat) (s : Fin n) : (v.row i s : α) = 0 := by
  simp [Variable.row, constant]

theorem Report.component_eq (report : Report r m (List.ofFn x) request)
    (unchanged : ∀ v ∈ r.vars, v.isConstant = false → v.change = none) (derived : request ≠ .value)
    (member : b ∈ r.terms) (s : Fin r.scalars) :
    report.component b s = ∑ k : Fin (r.arguments b).length,
      ∑ i ∈ Finset.range ((r.arguments b).get k).userDimension,
        (report.derivatives b).gradient k i * ((r.arguments b).get k).row i s := by
  rw [component, reported, List.mapIdx_eq_ofFn, List.map_ofFn, List.sum_ofFn]
  refine Finset.sum_congr rfl fun k _ => ?_
  have argument : (r.arguments b)[k.val]? = some ((r.arguments b).get k) := List.getElem?_eq_getElem k.isLt
  simp only [Function.comp_apply]
  generalize (r.arguments b).get k = v at argument
  cases constant : v.isConstant with
  | true => simp only [↓reduceIte, row_eq_zero constant, mul_zero, Finset.sum_const_zero]
  | false =>
      have change := unchanged v (mem_vars (List.mem_of_getElem? argument)) constant
      have carried := report.carried derived b member _ (mem_reported argument _) constant
      rw [solverGradient, change] at carried
      simp only [Bool.false_eq_true, ↓reduceIte]
      rw [← Except.ok.inj carried, offsetPart_map_range constant]

theorem sum_freeArguments (f : Nat × Variable α → α) : ((r.freeArguments b).map f).sum =
    ∑ k : Fin (r.arguments b).length,
      if ((r.arguments b).get k).isConstant then 0 else f (k, (r.arguments b).get k) := by
  refine Eq.trans ?_ (sum_mapIdx (fun k v => if v.isConstant then 0 else f (k, v)) (r.arguments b))
  rw [freeArguments, List.map_map, List.mapIdx_eq_zipIdx_map]
  generalize (r.arguments b).zipIdx = l
  induction l with
  | nil => rfl
  | cons a rest ih =>
      obtain ⟨v, k⟩ := a
      cases constant : v.isConstant <;> simp_all [Function.comp_def]

theorem sum_freePairs (f : (Nat × Variable α) × (Nat × Variable α) → α) : ((r.freePairs b).map f).sum =
    ∑ k : Fin (r.arguments b).length, ∑ l : Fin (r.arguments b).length,
      if ((r.arguments b).get k).isConstant ∨ ((r.arguments b).get l).isConstant then 0
      else f ((k, (r.arguments b).get k), (l, (r.arguments b).get l)) := by
  rw [freePairs, sum_flatMap]
  simp only [List.map_map, Function.comp_def, sum_freeArguments]
  refine Finset.sum_congr rfl fun k _ => ?_
  split
  · rename_i constant
    simp only [constant, true_or, ↓reduceIte, Finset.sum_const_zero]
  · rename_i free
    simp only [free, Bool.false_eq_true, false_or]

theorem Report.pairPart_eq (report : Report r m (List.ofFn x) request) {k l : Nat} {w : Variable α}
    (free : v.isConstant = false) (free' : w.isConstant = false) (s t : Fin r.scalars) :
    report.pairPart b s t ((k, v), (l, w)) = ∑ i ∈ Finset.range v.userDimension,
      ∑ j ∈ Finset.range w.userDimension, (report.derivatives b).hessian k l i j * v.row i s * w.row j t := by
  have column (i : Nat) : ∑ j ∈ Finset.range w.userDimension,
      (report.derivatives b).hessian k l i j * v.row i s * w.row j t =
        (∑ j ∈ Finset.range w.userDimension, (report.derivatives b).hessian k l i j * w.row j t) * v.row i s := by
    rw [Finset.sum_mul]
    exact Finset.sum_congr rfl fun j _ => mul_right_comm _ _ _
  simp only [column, ← offsetPart_map_range free', ← offsetPart_map_range free, offsetPart, getD_map_range,
    pairPart]
  split_ifs <;> first | rfl | omega

theorem Report.sum_pairPart_eq (report : Report r m (List.ofFn x) request) (s t : Fin r.scalars) :
    ((r.freePairs b).map (report.pairPart b s t)).sum =
      ∑ k : Fin (r.arguments b).length, ∑ l : Fin (r.arguments b).length,
        ∑ i ∈ Finset.range ((r.arguments b).get k).userDimension,
          ∑ j ∈ Finset.range ((r.arguments b).get l).userDimension, (report.derivatives b).hessian k l i j *
            ((r.arguments b).get k).row i s * ((r.arguments b).get l).row j t := by
  rw [sum_freePairs]
  refine Finset.sum_congr rfl fun k _ => Finset.sum_congr rfl fun l _ => ?_
  generalize (r.arguments b).get k = v
  generalize (r.arguments b).get l = w
  split
  · rename_i constant
    symm
    refine Finset.sum_eq_zero fun i _ => Finset.sum_eq_zero fun j _ => ?_
    rcases constant with constant | constant
    · rw [row_eq_zero constant, mul_zero, zero_mul]
    · rw [row_eq_zero constant, mul_zero]
  · rename_i free
    obtain ⟨first, second⟩ := not_or.1 free
    exact report.pairPart_eq (Bool.eq_false_of_not_eq_true first) (Bool.eq_false_of_not_eq_true second) s t

structure Smooth (r : Registry α) (m : Memory α) (jet : Binding α → List (List α) → Jet α) : Prop where
  evaluates : ∀ b ∈ r.terms, ∀ request x, b.term.evaluate request x = (jet b x).put
  unchanged : ∀ v ∈ r.vars, v.isConstant = false → v.change = none
  filled : ∀ v ∈ r.vars, v.isConstant = true → ∃ values, storedValue m v = .ok values

def Smooth.report {jet : Binding α → List (List α) → Jet α} (smooth : r.Smooth m jet) (wf : r.WellFormed)
    {x : List α} (size : x.length = r.scalars) (request : Request) : Report r m x request where
  point v := outcome (localValue m x v)
  value b := (jet b ((r.arguments b).map fun v => outcome (localValue m x v))).value
  derivatives b :=
    let jet := jet b ((r.arguments b).map fun v => outcome (localValue m x v))
    ⟨jet.gradient, jet.hessian⟩
  carry _ part := part
  seen v member := by
    cases constant : v.isConstant with
    | true =>
        obtain ⟨values, stored⟩ := smooth.filled v member constant
        rw [localValue_of_constant constant, stored, outcome]
    | false => rw [wf.localValue_eq size member constant (smooth.unchanged v member constant), outcome]
  evaluated b member := by
    rw [smooth.evaluates b member]
    rfl
  carried _ b member part reported free := by
    obtain ⟨k, inside, rfl⟩ := List.mem_mapIdx.1 reported
    rw [solverGradient, smooth.unchanged _ (mem_vars (List.getElem_mem inside)) free]

end Registry

end Descent
