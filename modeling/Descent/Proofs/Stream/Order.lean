import Mathlib
import Descent.Objective.Stream
import Descent.Proofs.Registry.WellFormed

namespace Descent.Registry

variable {α : Type} {r : Registry α}

def ordered (r : Registry α) : List (Variable α) := r.layoutOrder.filterMap (r.vars[·]?)

def placeOf (r : Registry α) (i : Nat) : Nat := r.layoutOrder.idxOf i

theorem mem_chosen (constant : Bool) (vars : List (Variable α)) (i : Nat) :
    i ∈ (vars.zipIdx.filter fun (v, _) => v.isConstant == constant).map (·.2) ↔
      ∃ v, vars[i]? = some v ∧ v.isConstant = constant := by
  simp [List.mem_zipIdx_iff_getElem?]

theorem mem_layoutOrder {i : Nat} : i ∈ r.layoutOrder ↔ i < r.vars.length := by
  rw [layoutOrder, List.mem_append, mem_chosen, mem_chosen]
  constructor
  · rintro (⟨v, at_i, -⟩ | ⟨v, at_i, -⟩) <;> exact (List.getElem?_eq_some_iff.1 at_i).1
  · intro inside
    rw [List.getElem?_eq_getElem inside]
    cases constant : r.vars[i].isConstant with
    | true => exact .inr ⟨_, rfl, constant⟩
    | false => exact .inl ⟨_, rfl, constant⟩

theorem filterMap_positions (constant : Bool) (vars : List (Variable α)) :
    ((vars.zipIdx.filter fun (v, _) => v.isConstant == constant).map (·.2)).filterMap (vars[·]?) =
      vars.filter (·.isConstant == constant) := by
  have known : ∀ p ∈ vars.zipIdx.filter fun (v, _) => v.isConstant == constant,
      vars[p.2]? = some p.1 := by
    intro p member
    exact List.mem_zipIdx_iff_getElem?.1 (List.mem_filter.1 member).1
  rw [List.filterMap_map, List.filterMap_congr (g := fun p => some p.1) known, List.filterMap_eq_map']
  have filtered : (vars.zipIdx.filter fun (v, _) => v.isConstant == constant).map (·.1) =
      (vars.zipIdx.map (·.1)).filter (·.isConstant == constant) := by
    rw [List.filter_map]
    rfl
  rw [filtered, List.zipIdx_map_fst]

theorem ordered_eq : r.ordered = r.vars.filter (!·.isConstant) ++ r.vars.filter (·.isConstant) := by
  rw [ordered, layoutOrder, List.filterMap_append, filterMap_positions, filterMap_positions]
  simp

theorem perm_ordered : r.ordered.Perm r.vars := by
  rw [ordered_eq]
  exact (List.perm_append_comm).trans (List.filter_append_perm _ _)

theorem placeOf_lt {i : Nat} (inside : i < r.vars.length) : r.placeOf i < r.layoutOrder.length :=
  List.idxOf_lt_length_iff.2 (mem_layoutOrder.2 inside)

theorem ordered_eq_map : r.ordered.map some = r.layoutOrder.map (r.vars[·]?) := by
  rw [ordered]
  have known : ∀ i ∈ r.layoutOrder, ∃ v, r.vars[i]? = some v := fun i member =>
    ⟨_, List.getElem?_eq_getElem (mem_layoutOrder.1 member)⟩
  generalize r.layoutOrder = order at known
  induction order with
  | nil => rfl
  | cons i rest ih =>
      obtain ⟨v, at_i⟩ := known i List.mem_cons_self
      rw [List.filterMap_cons_some at_i, List.map_cons, List.map_cons, at_i,
        ih fun j member => known j (List.mem_cons_of_mem _ member)]

theorem length_layoutOrder : r.layoutOrder.length = r.vars.length := by
  have lengths := congrArg List.length (ordered_eq_map (r := r))
  rw [List.length_map, List.length_map, perm_ordered.length_eq] at lengths
  exact lengths.symm

theorem getElem?_ordered {i : Nat} (inside : i < r.vars.length) :
    r.ordered[r.placeOf i]? = r.vars[i]? := by
  have there := congrArg (·[r.placeOf i]?) (ordered_eq_map (r := r))
  have bound := placeOf_lt inside
  simp only [List.getElem?_map, List.getElem?_eq_getElem bound, Option.map_some] at there
  have back : r.layoutOrder[r.placeOf i] = i := List.getElem_idxOf bound
  rw [back] at there
  cases found : r.ordered[r.placeOf i]? with
  | none =>
      rw [found] at there
      cases there
  | some v =>
      rw [found] at there
      exact Option.some.inj there

def FreeFirst (vars : List (Variable α)) : Prop :=
  vars.Pairwise fun v w => v.isConstant = true → w.isConstant = true

theorem freeFirst_ordered : FreeFirst r.ordered := by
  rw [ordered_eq, FreeFirst, List.pairwise_append]
  refine ⟨List.pairwise_of_forall_mem_list fun v free w _ constant => ?_,
    List.pairwise_of_forall_mem_list fun v _ w constant _ => (List.mem_filter.1 constant).2,
    fun v _ w constant _ => (List.mem_filter.1 constant).2⟩
  have isFree := (List.mem_filter.1 free).2
  rw [constant] at isFree
  cases isFree

theorem layoutOrder_of_freeFirst (freeFirst : FreeFirst r.vars) :
    r.layoutOrder = List.range' 0 r.vars.length := by
  have general (vars : List (Variable α)) (k : Nat) (freeFirst : FreeFirst vars) :
      ((vars.zipIdx k).filter (·.1.isConstant == false)).map (·.2) ++
        ((vars.zipIdx k).filter (·.1.isConstant == true)).map (·.2) = List.range' k vars.length := by
    induction vars generalizing k with
    | nil => rfl
    | cons v rest ih =>
        obtain ⟨first, freeFirst⟩ := List.pairwise_cons.1 freeFirst
        have others := ih (k + 1) freeFirst
        rw [List.zipIdx_cons, List.length_cons, List.range'_succ]
        cases constant : v.isConstant with
        | false => simpa [constant] using others
        | true =>
            have none : (rest.zipIdx (k + 1)).filter (·.1.isConstant == false) = [] := by
              rw [List.filter_eq_nil_iff]
              intro p member
              simp [first p.1 (List.fst_mem_of_mem_zipIdx member) constant]
            rw [none] at others
            rw [List.filter_cons_of_neg (by simp [constant]), List.filter_cons_of_pos (by simp [constant]), none]
            simpa using others
  exact general r.vars 0 freeFirst

theorem ordered_of_freeFirst (freeFirst : FreeFirst r.vars) : r.ordered = r.vars := by
  have all : r.layoutOrder.map (r.vars[·]?) = r.vars.map some := by
    rw [layoutOrder_of_freeFirst freeFirst]
    refine List.ext_getElem (by simp) fun i inside inside' => ?_
    simp only [List.length_map, List.length_range'] at inside
    simp [inside]
  exact List.map_injective_iff.2 (Option.some_injective _) (ordered_eq_map.trans all)

theorem placeOf_of_freeFirst (freeFirst : FreeFirst r.vars) {i : Nat} (inside : i < r.vars.length) :
    r.placeOf i = i := by
  have bound : i < (List.range' 0 r.vars.length).length := by rwa [List.length_range']
  have here : (List.range' 0 r.vars.length)[i] = i := by simp
  rw [placeOf, layoutOrder_of_freeFirst freeFirst]
  calc
    _ = (List.range' 0 r.vars.length).idxOf (List.range' 0 r.vars.length)[i] := by rw [here]
    _ = i := List.Nodup.idxOf_getElem List.nodup_range' i bound

theorem extent_of_kind {kind constant : Bool} {vars : List (Variable α)}
    (same : ∀ v ∈ vars, v.isConstant = kind) (other : kind ≠ constant) : extent constant vars = 0 := by
  have none : vars.filter (·.isConstant = constant) = [] := by
    rw [List.filter_eq_nil_iff]
    intro v member
    simpa [same v member] using other
  rw [extent, none]
  rfl

theorem placed_free_of_tiles {vars : List (Variable α)} (free : ∀ v ∈ vars, v.isConstant = false)
    {start stop : Nat} (tiles : Tiles start vars stop) (constant : Nat) :
    placed start constant vars = vars := by
  induction vars generalizing start with
  | nil => rfl
  | cons v rest ih =>
      obtain ⟨here, free⟩ := List.forall_mem_cons.1 free
      obtain ⟨first, tiles⟩ := tiles
      have same : { v with globalIndex := start } = v := by rw [← first]
      rw [placed, if_neg (by simp [here]), ih free tiles, same]

theorem placed_constant_of_tiles {vars : List (Variable α)} (constant : ∀ v ∈ vars, v.isConstant = true)
    {start stop : Nat} (tiles : Tiles start vars stop) (free : Nat) :
    placed free start vars = vars := by
  induction vars generalizing start with
  | nil => rfl
  | cons v rest ih =>
      obtain ⟨here, constant⟩ := List.forall_mem_cons.1 constant
      obtain ⟨first, tiles⟩ := tiles
      have same : { v with globalIndex := start } = v := by rw [← first]
      rw [placed, if_pos here, ih constant tiles, same]

theorem extent_ordered (constant : Bool) : extent constant r.ordered = extent constant r.vars :=
  ((perm_ordered.filter _).map _).sum_eq

theorem placed_ordered (wf : r.WellFormed) : placed 0 r.scalars r.ordered = r.ordered := by
  have free : ∀ v ∈ r.vars.filter (!·.isConstant), v.isConstant = false := fun v member => by
    simpa using (List.mem_filter.1 member).2
  have constant : ∀ v ∈ r.vars.filter (·.isConstant), v.isConstant = true := fun v member =>
    (List.mem_filter.1 member).2
  have size : extent false (r.vars.filter (!·.isConstant)) = r.scalars := by
    rw [wf.scalars, ← extent_ordered, ordered_eq, extent, extent, List.filter_append,
      (List.filter_eq_nil_iff (l := r.vars.filter (·.isConstant))).2 fun v member => by
        simp [constant v member], List.append_nil]
  rw [ordered_eq, placed_append, placed_free_of_tiles free wf.tiles_free, Nat.zero_add, size,
    extent_of_kind free (by decide), Nat.add_zero, placed_constant_of_tiles constant wf.tiles_constant]

theorem pairwise_ordered (wf : r.WellFormed) :
    r.ordered.Pairwise fun v w => v.globalIndex + v.solverDimension ≤ w.globalIndex := by
  rw [ordered_eq, List.pairwise_append]
  refine ⟨wf.tiles_free.pairwise, wf.tiles_constant.pairwise, fun v free w constant => ?_⟩
  exact (wf.tiles_free.le_stop free).trans (wf.tiles_constant.start_le constant)

end Descent.Registry
