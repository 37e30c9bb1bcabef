import Descent.Proofs.Registry.WellFormed

namespace Descent.Registry

variable {α : Type} {r s t : Registry α}

def append (r : Registry α) (v : Variable α) : Registry α :=
  canonical { r with vars := r.vars ++ [v] }

def alter (r : Registry α) (i : Nat) (v : Variable α) : Registry α :=
  canonical { r with vars := r.vars.set i v }

def bind (r : Registry α) (b : Binding α) : Registry α := { r with terms := r.terms ++ [b] }

theorem WellFormed.append (wf : r.WellFormed) {v : Variable α} (fits : v.Fits)
    (fresh : v.storage ∉ r.vars.map Variable.storage) : (r.append v).WellFormed := by
  apply wellFormed_canonical
  · rw [List.map_append, List.map_singleton]
    exact List.nodup_append.2 ⟨wf.distinct, List.pairwise_singleton _ _, fun h known h' new same => by
      rw [List.mem_singleton] at new
      exact fresh (new ▸ same ▸ known)⟩
  · intro w member
    rcases List.mem_append.1 member with member | member
    · exact wf.vars w member
    · rw [List.mem_singleton.1 member]
      exact fits
  · intro b member
    rw [List.map_append]
    exact (wf.terms b member).append _
  · exact wf.threads

theorem outline_append (r : Registry α) (v : Variable α) :
    (r.append v).outline = { r.outline with vars := r.outline.vars ++ [v.unplaced] } := by
  rw [append, outline_canonical]
  simp [outline]

theorem WellFormed.relayout_insert (wf : r.WellFormed) {v : Variable α}
    (fresh : v.storage ∉ r.vars.map Variable.storage) :
    ({ r with
        vars := r.vars ++ [v]
        directory := r.directory.insert v.storage r.vars.length } : Registry α).relayout =
      r.append v := by
  have directory := Directory.insert_ofHandles fresh
  rw [List.length_map] at directory
  simp only [wf.directory, directory, Registry.append, Registry.canonical, List.map_append,
    List.map_singleton]

theorem isConstant_eq_false (fits : ∀ v ∈ r.vars, v.Fits) (none : extent true r.vars = 0) :
    ∀ v ∈ r.vars, v.isConstant = false := by
  intro v member
  cases constant : v.isConstant with
  | false => rfl
  | true =>
      have positive := (fits v member).solver_pos
      have bound : v.solverDimension ≤ extent true r.vars :=
        List.le_sum_of_mem (List.mem_map_of_mem (List.mem_filter.2 ⟨member, by simpa using constant⟩))
      omega

theorem placed_of_free {vars : List (Variable α)} (free : ∀ v ∈ vars, v.isConstant = false)
    (next constant other : Nat) : placed next constant vars = placed next other vars := by
  induction vars generalizing next with
  | nil => rfl
  | cons v rest ih =>
      simp only [placed, free v List.mem_cons_self, Bool.false_eq_true, ↓reduceIte]
      rw [ih fun w member => free w (List.mem_cons_of_mem _ member)]

theorem WellFormed.extend_eq (wf : r.WellFormed) {v : Variable α}
    (fresh : v.storage ∉ r.vars.map Variable.storage) (none : r.constants = 0)
    (free : v.isConstant = false) (last : v.globalIndex = r.scalars) :
    ({ r with
        vars := r.vars ++ [v]
        directory := r.directory.insert v.storage r.vars.length
        scalars := r.scalars + v.solverDimension } : Registry α) = r.append v := by
  have directory := Directory.insert_ofHandles fresh
  rw [List.length_map] at directory
  have allFree := isConstant_eq_false wf.vars (wf.constants ▸ none)
  have moved : placed 0 (r.scalars + v.solverDimension) (r.vars ++ [v]) = r.vars ++ [v] := by
    have here : { v with globalIndex := r.scalars } = v := by rw [← last]
    rw [placed_append, placed_of_free allFree _ _ r.scalars, wf.laidOut, Nat.zero_add, ← wf.scalars,
      placed, if_neg (by simp [free]), here, placed]
  have scalars : extent false (r.vars ++ [v]) = r.scalars + v.solverDimension := by
    simp [wf.scalars, extent, free]
  have constants : extent true (r.vars ++ [v]) = r.constants := by
    simp [wf.constants, extent, free]
  simp only [Registry.append, canonical_eq, scalars, constants, moved, wf.directory, directory,
    List.map_append, List.map_singleton]

theorem map_set_eq {β : Type} {f : Variable α → β} {vars : List (Variable α)} {i : Nat}
    {v w : Variable α} (at_i : vars[i]? = some v) (same : f w = f v) :
    (vars.set i w).map f = vars.map f := by
  obtain ⟨inside, rfl⟩ := List.getElem?_eq_some_iff.1 at_i
  rw [List.map_set, same, ← List.getElem_map f (h := by simpa), List.set_getElem_self]

theorem WellFormed.alter (wf : r.WellFormed) {i : Nat} {v w : Variable α}
    (at_i : r.vars[i]? = some v) (storage : w.storage = v.storage)
    (dimension : w.userDimension = v.userDimension) (fits : w.Fits) :
    (r.alter i w).WellFormed := by
  apply wellFormed_canonical
  · rw [map_set_eq at_i storage]
    exact wf.distinct
  · intro u member
    rcases List.mem_or_eq_of_mem_set member with member | rfl
    · exact wf.vars u member
    · exact fits
  · rw [map_set_eq at_i dimension]
    exact wf.terms
  · exact wf.threads

theorem WellFormed.relayout_set (wf : r.WellFormed) {i : Nat} {v w : Variable α}
    (at_i : r.vars[i]? = some v) (storage : w.storage = v.storage) :
    ({ r with vars := r.vars.set i w } : Registry α).relayout = r.alter i w := by
  simp only [Registry.alter, Registry.canonical, map_set_eq at_i storage, wf.directory]

theorem extent_eq_kinds (constant : Bool) (vars : List (Variable α)) : extent constant vars =
    (((vars.map fun v => (v.isConstant, v.solverDimension)).filter (·.1 = constant)).map (·.2)).sum := by
  simp only [extent, List.filter_map, List.map_map]
  rfl

theorem WellFormed.set_eq (wf : r.WellFormed) {i : Nat} {v w : Variable α}
    (at_i : r.vars[i]? = some v) (storage : w.storage = v.storage)
    (kind : w.isConstant = v.isConstant) (size : w.solverDimension = v.solverDimension)
    (index : w.globalIndex = v.globalIndex) :
    ({ r with vars := r.vars.set i w } : Registry α) = r.alter i w := by
  have extents (constant : Bool) : extent constant (r.vars.set i w) = extent constant r.vars := by
    have kinds : (r.vars.set i w).map (fun v => (v.isConstant, v.solverDimension)) =
        r.vars.map (fun v => (v.isConstant, v.solverDimension)) :=
      map_set_eq at_i (Prod.ext kind size)
    rw [extent_eq_kinds, kinds, ← extent_eq_kinds]
  have moved := placed_set at_i kind size index wf.laidOut
  simp only [Registry.alter, canonical_eq, extents, ← wf.scalars, ← wf.constants, moved,
    map_set_eq at_i storage, ← wf.directory]

theorem WellFormed.alter_self (wf : r.WellFormed) {i : Nat} {v : Variable α}
    (at_i : r.vars[i]? = some v) : r.alter i v = r := by
  rw [← wf.set_eq at_i rfl rfl rfl rfl]
  obtain ⟨inside, rfl⟩ := List.getElem?_eq_some_iff.1 at_i
  rw [List.set_getElem_self]

theorem WellFormed.of_layout_eq (wf : r.WellFormed) (vars : s.vars = r.vars)
    (directory : s.directory = r.directory) (scalars : s.scalars = r.scalars)
    (constants : s.constants = r.constants)
    (terms : ∀ b ∈ s.terms, b.Fits (r.vars.map Variable.userDimension))
    (threads : 0 < s.threads) : s.WellFormed where
  canonical := by
    simp only [canonical_eq, vars, ← wf.scalars, ← wf.constants, ← wf.directory, wf.laidOut]
    rw [← vars, ← directory, ← scalars, ← constants]
  distinct := vars ▸ wf.distinct
  vars := vars ▸ wf.vars
  terms := vars ▸ terms
  threads := threads

theorem WellFormed.bind (wf : r.WellFormed) {b : Binding α}
    (fits : b.Fits (r.vars.map Variable.userDimension)) : (r.bind b).WellFormed := by
  refine wf.of_layout_eq rfl rfl rfl rfl (fun b' member => ?_) wf.threads
  rcases List.mem_append.1 member with member | member
  · exact wf.terms b' member
  · rw [List.mem_singleton.1 member]
    exact fits

theorem WellFormed.setConstant (wf : r.WellFormed) (constant : α) :
    ({ r with constant } : Registry α).WellFormed :=
  wf.of_layout_eq rfl rfl rfl rfl wf.terms wf.threads

theorem WellFormed.setThreads (wf : r.WellFormed) {threads : Nat} (positive : 0 < threads) :
    ({ r with threads } : Registry α).WellFormed :=
  wf.of_layout_eq rfl rfl rfl rfl wf.terms positive

theorem WellFormed.enableHessian (wf : r.WellFormed) (hessianEnabled : Bool) :
    ({ r with hessianEnabled } : Registry α).WellFormed :=
  wf.of_layout_eq rfl rfl rfl rfl wf.terms wf.threads

structure Grown (r s : Registry α) : Prop where
  vars : ∃ more, s.vars.map Variable.unplaced = r.vars.map Variable.unplaced ++ more ∧
    ∀ v ∈ more, v.change = none
  terms : ∃ more, s.terms = r.terms ++ more
  constant : s.constant = r.constant
  threads : s.threads = r.threads
  hessianEnabled : s.hessianEnabled = r.hessianEnabled

theorem Grown.refl (r : Registry α) : r.Grown r where
  vars := ⟨[], by simp⟩
  terms := ⟨[], by simp⟩
  constant := rfl
  threads := rfl
  hessianEnabled := rfl

theorem Grown.trans (first : r.Grown s) (second : s.Grown t) : r.Grown t where
  vars := by
    obtain ⟨more, same, plain⟩ := first.vars
    obtain ⟨others, same', plain'⟩ := second.vars
    refine ⟨more ++ others, by rw [same', same, List.append_assoc], fun v member => ?_⟩
    exact (List.mem_append.1 member).elim (plain v) (plain' v)
  terms := by
    obtain ⟨more, same⟩ := first.terms
    obtain ⟨others, same'⟩ := second.terms
    exact ⟨more ++ others, by rw [same', same, List.append_assoc]⟩
  constant := second.constant.trans first.constant
  threads := second.threads.trans first.threads
  hessianEnabled := second.hessianEnabled.trans first.hessianEnabled

theorem grown_append (r : Registry α) {v : Variable α} (plain : v.change = none) :
    r.Grown (r.append v) where
  vars := by
    refine ⟨[v.unplaced], ?_, by simpa [Variable.unplaced] using plain⟩
    exact congrArg Registry.vars (outline_append r v)
  terms := ⟨[], by simp [append, canonical_eq]⟩
  constant := rfl
  threads := rfl
  hessianEnabled := rfl

theorem grown_bind (r : Registry α) (b : Binding α) : r.Grown (r.bind b) where
  vars := ⟨[], by simp [bind]⟩
  terms := ⟨[b], rfl⟩
  constant := rfl
  threads := rfl
  hessianEnabled := rfl

theorem Grown.plain (grown : r.Grown s) (plain : ∀ v ∈ r.vars, v.change = none) :
    ∀ v ∈ s.vars, v.change = none := by
  obtain ⟨more, same, plain'⟩ := grown.vars
  intro v member
  have unplaced : v.unplaced ∈ r.vars.map Variable.unplaced ++ more :=
    same ▸ List.mem_map_of_mem member
  rcases List.mem_append.1 unplaced with known | new
  · obtain ⟨w, member, equal⟩ := List.mem_map.1 known
    exact (congrArg Variable.change equal).symm.trans (plain w member)
  · exact plain' v.unplaced new

theorem Grown.dimension (grown : r.Grown s) {i d : Nat}
    (at_i : (r.vars.map Variable.userDimension)[i]? = some d) :
    (s.vars.map Variable.userDimension)[i]? = some d := by
  obtain ⟨more, same, -⟩ := grown.vars
  have through (l : List (Variable α)) : l.map Variable.userDimension =
      (l.map Variable.unplaced).map Variable.userDimension := by
    simp [Function.comp_def, Variable.unplaced]
  rw [through, List.getElem?_map] at at_i ⊢
  obtain ⟨inside, -⟩ := List.getElem?_eq_some_iff.1 (Option.map_eq_some_iff.1 at_i).choose_spec.1
  rw [same, List.getElem?_append_left inside, at_i]

theorem dropVariablesFrom_eq (directory : r.directory = .ofHandles (r.vars.map Variable.storage))
    (distinct : (r.vars.map Variable.storage).Nodup) (count : Nat) :
    r.dropVariablesFrom count = canonical { r with vars := r.vars.take count } := by
  have split : r.vars.map Variable.storage =
      (r.vars.take count).map Variable.storage ++ (r.vars.drop count).map Variable.storage := by
    rw [← List.map_append, List.take_append_drop]
  have dropped := Directory.foldl_erase_ofHandles (split ▸ distinct)
  rw [← split, ← directory] at dropped
  simp only [dropVariablesFrom, canonical, dropped]

theorem Grown.cut (grown : r.Grown s) (wf : r.WellFormed) (wf' : s.WellFormed) :
    ({ s with terms := s.terms.take r.terms.length } : Registry α).dropVariablesFrom r.vars.length =
      r := by
  obtain ⟨more, same, -⟩ := grown.vars
  obtain ⟨others, terms⟩ := grown.terms
  have vars : (s.vars.take r.vars.length).map Variable.unplaced = r.vars.map Variable.unplaced := by
    rw [List.map_take, same]
    exact List.take_left' (by simp)
  have outlines : outline { s with
      vars := s.vars.take r.vars.length
      terms := s.terms.take r.terms.length } = r.outline := by
    simp only [outline, vars, terms, List.take_left', grown.constant, grown.threads,
      grown.hessianEnabled]
  -- the places of the variables may differ from those in `r`: only the outlines agree before the new layout
  calc
    _ = canonical { s with
          vars := s.vars.take r.vars.length
          terms := s.terms.take r.terms.length } :=
      dropVariablesFrom_eq (r := { s with terms := s.terms.take r.terms.length })
        wf'.directory wf'.distinct r.vars.length
    _ = r.canonical := by rw [← canonical_outline, outlines, canonical_outline]
    _ = r := wf.canonical

theorem Grown.dropVariables (grown : r.Grown s) (wf : r.WellFormed) (wf' : s.WellFormed)
    (terms : s.terms = r.terms) : s.dropVariablesFrom r.vars.length = r := by
  have cut := grown.cut wf wf'
  rwa [← terms, List.take_length] at cut

end Descent.Registry
