import Descent.Proofs.Registry.Composition

namespace Descent

variable {α : Type}

def Registry.StoredIn (r : Registry α) (m : Memory α) : Prop :=
  ∀ v ∈ r.vars, ∃ block offset,
    m.object? v.storage = some (.array .double [v.userDimension] block offset)

def Variable.renewed (v : Variable α) : Variable α := { v.unplaced with isConstant := false }

def Variable.held (handles : List Handle) (v : Variable α) : Variable α :=
  { v with isConstant := v.isConstant || decide (v.storage ∈ handles) }

theorem Variable.held_nil : (held [] : Variable α → Variable α) = id := by
  funext v
  simp [held]

theorem Variable.held_cons (h : Handle) (handles : List Handle) (v : Variable α) :
    (v.held [h]).held handles = v.held (h :: handles) := by
  simp [held, Bool.or_assoc]

theorem Registry.outline_alter (r : Registry α) (i : Nat) (v : Variable α) :
    (r.alter i v).outline = { r.outline with vars := r.outline.vars.set i v.unplaced } := by
  rw [alter, outline_canonical]
  simp [outline, List.map_set]

theorem Registry.storages_arguments (r : Registry α) (b : Binding α) :
    (r.arguments b).map Variable.storage =
      b.positions.filterMap ((r.vars.map Variable.storage)[·]?) := by
  simp [Registry.arguments, List.map_filterMap]

theorem Binding.Fits.length_arguments {b : Binding α} {r : Registry α}
    (fits : b.Fits (r.vars.map Variable.userDimension)) : (r.arguments b).length = b.positions.length := by
  rw [Registry.arguments, List.filterMap_length_eq_length]
  intro i member
  obtain ⟨v, at_i⟩ := fits.exists_variable member
  simp [at_i]

namespace Objective

structure Drafts (g : Objective α) (w : Workspace α) (outline : Registry α) : Prop where
  wellFormed : g.WellFormed
  workspace : g.workspace = w
  idle : w.invalidate = w
  outline_eq : g.outline = outline

variable {f g : Objective α} {w : Workspace α} {o : Registry α} {m : Memory α}

theorem Drafts.become (drafts : g.Drafts w o) {r : Registry α} (wf : r.WellFormed) :
    (g.become r).Drafts w r.outline :=
  ⟨wf, by rw [Objective.become, drafts.workspace, drafts.idle], drafts.idle, rfl⟩

theorem Drafts.storages (drafts : g.Drafts w o) :
    o.vars.map Variable.storage = g.vars.map Variable.storage := by
  rw [← drafts.outline_eq]
  simp [Registry.outline, Function.comp_def, Variable.unplaced]

theorem newVariable_stored {v : Variable α} (fits : v.Fits) {block offset : Nat}
    (stored : m.object? v.storage = some (.array .double [v.userDimension] block offset))
    (next : Nat) : newVariable m v.storage v.userDimension v.change next =
      .ok { v with globalIndex := next, isConstant := false } := by
  have positive : ¬((v.userDimension : Int) ≤ 0) := by
    have := fits.user_pos
    omega
  have checked : checkStorage m v.storage v.userDimension = .ok () := by
    simp only [checkStorage, stored, positive, ne_eq, not_true_eq_false, ↓reduceIte]
  obtain ⟨-, -, unchanged, changed⟩ := fits
  obtain ⟨storage, user, solver, index, isConstant, change⟩ := v
  cases change with
  | none =>
      cases unchanged rfl
      simp only [newVariable, checked, ok_bind, Int.toNat_natCast]
      rfl
  | some c =>
      obtain ⟨rfl, rfl⟩ := changed c rfl
      simp only [newVariable, checked, ok_bind, Int.toNat_natCast, ne_eq, not_true_eq_false,
        ↓reduceIte]
      rfl

theorem run_addVariable_stored (wf : g.WellFormed) {v : Variable α} (fits : v.Fits)
    (fresh : v.storage ∉ g.vars.map Variable.storage) {block offset : Nat}
    (stored : m.object? v.storage = some (.array .double [v.userDimension] block offset)) :
    (addVariable v.storage v.userDimension v.change).run m g = (.ok (), g.become
      (g.append { v with globalIndex := g.scalars, isConstant := false })) := by
  rw [run_addVariable wf, wf.find?_of_fresh fresh]
  simp only [newVariable_stored fits stored]

theorem Drafts.addVariable (drafts : g.Drafts w o) {v : Variable α} (fits : v.Fits)
    (fresh : v.storage ∉ o.vars.map Variable.storage) {block offset : Nat}
    (stored : m.object? v.storage = some (.array .double [v.userDimension] block offset)) :
    ∃ g', (addVariable v.storage v.userDimension v.change).run m g = (.ok (), g') ∧
      g'.Drafts w { o with vars := o.vars ++ [v.renewed] } := by
  rw [drafts.storages] at fresh
  have drafts' := drafts.become
    (drafts.wellFormed.append (fits.update g.scalars false) fresh)
  rw [Registry.outline_append, drafts.outline_eq] at drafts'
  exact ⟨_, run_addVariable_stored drafts.wellFormed fits fresh stored, drafts'⟩

theorem Drafts.addVariables {vs : List (Variable α)} (drafts : g.Drafts w o) (fits : ∀ v ∈ vs, v.Fits)
    (stored : ∀ v ∈ vs, ∃ block offset,
      m.object? v.storage = some (.array .double [v.userDimension] block offset))
    (distinct : (o.vars.map Variable.storage ++ vs.map Variable.storage).Nodup) :
    ∃ g', (vs.forM fun v => Objective.addVariable v.storage v.userDimension v.change).run m g =
      (.ok (), g') ∧ g'.Drafts w { o with vars := o.vars ++ vs.map Variable.renewed } := by
  induction vs generalizing g o with
  | nil => exact ⟨g, rfl, by simpa using drafts⟩
  | cons v rest ih =>
      obtain ⟨block, offset, here⟩ := stored v List.mem_cons_self
      have fresh : v.storage ∉ o.vars.map Variable.storage := fun again =>
        (List.nodup_append.1 distinct).2.2 _ again _ List.mem_cons_self rfl
      obtain ⟨g₁, first, drafts'⟩ := drafts.addVariable (fits v List.mem_cons_self) fresh here
      obtain ⟨g', run, drafts'⟩ := ih drafts' (fun u member => fits u (List.mem_cons_of_mem _ member))
        (fun u member => stored u (List.mem_cons_of_mem _ member))
        (by simpa [Variable.renewed, Variable.unplaced] using distinct)
      refine ⟨g', ?_, by rwa [List.map_cons, List.append_cons]⟩
      rw [List.forM, Edit.run_bind, first]
      exact run

theorem map_held_eq_set {vars : List (Variable α)} (distinct : (vars.map Variable.storage).Nodup)
    {i : Nat} {v : Variable α} (at_i : vars[i]? = some v) :
    vars.map (Variable.held [v.storage]) = vars.set i { v with isConstant := true } := by
  obtain ⟨inside, rfl⟩ := List.getElem?_eq_some_iff.1 at_i
  apply List.ext_getElem?
  intro j
  rw [List.getElem?_map, List.getElem?_set]
  by_cases same : i = j
  · subst same
    simp [inside, Variable.held]
  · rw [if_neg same]
    cases at_j : vars[j]? with
    | none => rfl
    | some u =>
        have other : u.storage ≠ vars[i].storage := fun clash =>
          same ((List.getElem?_inj (by simpa using inside) distinct).1 (by simp [at_i, at_j, clash]))
        simp [Variable.held, other]

theorem Drafts.exists_of_known (drafts : g.Drafts w o) {h : Handle} (known : h ∈ o.vars.map Variable.storage) :
    ∃ (i : Nat) (v : Variable α), g.vars[i]? = some v ∧ v.storage = h := by
  rw [drafts.storages] at known
  obtain ⟨i, at_i⟩ := List.getElem?_of_mem known
  rw [List.getElem?_map, Option.map_eq_some_iff] at at_i
  exact ⟨i, at_i⟩

theorem Drafts.setConstant (drafts : g.Drafts w o) {h : Handle}
    (known : h ∈ o.vars.map Variable.storage) :
    ∃ g', (setConstant h true).run m g = (.ok (), g') ∧
      g'.Drafts w { o with vars := o.vars.map (Variable.held [h]) } := by
  have wf := drafts.wellFormed
  obtain ⟨i, v, at_i, rfl⟩ := drafts.exists_of_known known
  have fits := wf.vars v (List.mem_of_getElem? at_i)
  refine ⟨_, by rw [run_setConstant wf, wf.find?_eq_some.2 ⟨at_i, rfl⟩], ?_⟩
  have drafts' := drafts.become (wf.alter (w := { v with isConstant := true }) at_i rfl rfl
    (fits.update v.globalIndex true))
  have at_i' : o.vars[i]? = some v.unplaced := by
    rw [← drafts.outline_eq]
    simp [Registry.outline, at_i]
  have vars : o.vars.map (Variable.held [v.storage]) =
      o.vars.set i ({ v with isConstant := true } : Variable α).unplaced :=
    map_held_eq_set (drafts.storages ▸ wf.distinct) at_i'
  rwa [Registry.outline_alter, drafts.outline_eq, ← vars] at drafts'

theorem Drafts.setConstants (drafts : g.Drafts w o) (vs : List (Variable α))
    (known : ∀ v ∈ vs, v.storage ∈ o.vars.map Variable.storage) :
    ∃ g', (vs.forM fun v => Objective.setConstant v.storage true).run m g = (.ok (), g') ∧
      g'.Drafts w { o with vars := o.vars.map (Variable.held (vs.map Variable.storage)) } := by
  induction vs generalizing g o with
  | nil => exact ⟨g, rfl, by simpa [Variable.held_nil] using drafts⟩
  | cons v rest ih =>
      obtain ⟨g', first, drafts'⟩ := drafts.setConstant (m := m) (known v List.mem_cons_self)
      obtain ⟨g'', run, drafts''⟩ := ih drafts' fun u member => by
        simpa [Function.comp_def, Variable.held] using known u (List.mem_cons_of_mem _ member)
      refine ⟨g'', ?_, ?_⟩
      · rw [List.forM, Edit.run_bind, first]
        exact run
      · simpa only [List.map_map, Function.comp_def, Variable.held_cons, List.map_cons] using drafts''

theorem map_held_renewed {vs : List (Variable α)} (distinct : (vs.map Variable.storage).Nodup) :
    (vs.map Variable.renewed).map
        (Variable.held ((vs.filter (·.isConstant)).map Variable.storage)) =
      vs.map Variable.unplaced := by
  rw [List.map_map, List.map_inj_left]
  intro v member
  have constant : v.storage ∈ (vs.filter (·.isConstant)).map Variable.storage ↔
      v.isConstant = true := by
    rw [List.mem_map]
    constructor
    · rintro ⟨u, held, same⟩
      obtain ⟨member', constant⟩ := List.mem_filter.1 held
      rwa [← List.inj_on_of_nodup_map distinct member' member same]
    · exact fun constant => ⟨v, List.mem_filter.2 ⟨member, constant⟩, rfl⟩
  simp [Variable.held, Variable.renewed, Variable.unplaced, constant]

theorem bindArguments_known (wf : g.WellFormed) {t : Term α} {positions : List Nat} {k : Nat}
    (known : ∀ j i : Nat, positions[j]? = some i → ∃ v, g.vars[i]? = some v ∧
      t.dimension (k + j) = .ok (v.userDimension : Int)) :
    ((((positions.filterMap (g.vars[·]?)).map Variable.storage).zipIdx k).mapM
      fun (h, argument) => bindArgument t h argument).run m g = (.ok positions, g) := by
  induction positions generalizing k with
  | nil => rfl
  | cons i rest ih =>
      obtain ⟨v, at_i, same⟩ := known 0 i rfl
      have here : (bindArgument t v.storage k).run m g = (.ok i, g) := by
        rw [Nat.add_zero] at same
        simp only [run_bindArgument wf, same, wf.find?_eq_some.2 ⟨at_i, rfl⟩, ↓reduceIte]
      have others := ih (k := k + 1) fun j i' found => by
        obtain ⟨u, at_i', same⟩ := known (j + 1) i' found
        exact ⟨u, at_i', by rw [← same]; congr 1; omega⟩
      simp only [List.filterMap_cons, at_i, List.map_cons, List.zipIdx_cons, List.mapM_cons,
        Edit.run_bind, here, others, Edit.run_pure]

theorem run_addTerm_known (wf : g.WellFormed) {b : Binding α}
    (fits : b.Fits (g.vars.map Variable.userDimension)) :
    (addTerm b.term ((g.arguments b).map Variable.storage)).run m g =
      (.ok (), g.become (g.bind b)) := by
  have known (j i : Nat) (found : b.positions[j]? = some i) : ∃ v, g.vars[i]? = some v ∧
      b.term.dimension (0 + j) = .ok (v.userDimension : Int) := by
    rw [Nat.zero_add]
    exact fits.registered found
  have arity : b.term.arity = ((g.arguments b).map Variable.storage).length := by
    rw [List.length_map, fits.length_arguments, fits.arity]
  have found := bindArguments_known (m := m) wf known
  rw [← Registry.arguments] at found
  simp only [addTerm, arity, ne_eq, not_true_eq_false, ↓reduceIte, Edit.run_bind, Edit.run_get,
    Edit.run_tryCatch, found, Edit.run_modify, become, Registry.bind, invalidate]

theorem storages_congr {r s : Registry α} (same : r.outline.vars = s.outline.vars) (b : Binding α) :
    (r.arguments b).map Variable.storage = (s.arguments b).map Variable.storage := by
  rw [Registry.storages_arguments, Registry.storages_arguments,
    Registry.map_congr_unplaced (fun _ => rfl) same]

theorem Drafts.addTerm {r : Registry α} {b : Binding α} (drafts : g.Drafts w o)
    (same : o.vars = r.outline.vars) (fits : b.Fits (r.vars.map Variable.userDimension)) :
    ∃ g', (addTerm b.term ((r.arguments b).map (·.storage))).run m g = (.ok (), g') ∧
      g'.Drafts w { o with terms := o.terms ++ [b] } := by
  have vars : g.outline.vars = r.outline.vars := by rw [drafts.outline_eq, same]
  rw [← Registry.map_congr_unplaced (fun _ => rfl) vars] at fits
  have drafts' := drafts.become (drafts.wellFormed.bind fits)
  have outline : (g.bind b).outline = { o with terms := o.terms ++ [b] } := by
    rw [← drafts.outline_eq]
    rfl
  rw [outline] at drafts'
  rw [← storages_congr vars b]
  exact ⟨_, run_addTerm_known drafts.wellFormed fits, drafts'⟩

theorem Drafts.addTerms {r : Registry α} {bs : List (Binding α)} (drafts : g.Drafts w o)
    (same : o.vars = r.outline.vars) (fits : ∀ b ∈ bs, b.Fits (r.vars.map Variable.userDimension)) :
    ∃ g', (bs.forM fun b => Objective.addTerm b.term ((r.arguments b).map (·.storage))).run m g =
      (.ok (), g') ∧ g'.Drafts w { o with terms := o.terms ++ bs } := by
  induction bs generalizing g o with
  | nil => exact ⟨g, rfl, by simpa using drafts⟩
  | cons b rest ih =>
      obtain ⟨g₁, first, drafts'⟩ := drafts.addTerm (m := m) same (fits b List.mem_cons_self)
      obtain ⟨g', run, drafts''⟩ := ih drafts' same fun c member =>
        fits c (List.mem_cons_of_mem _ member)
      refine ⟨g', ?_, by simpa using drafts''⟩
      rw [List.forM, Edit.run_bind, first]
      exact run

variable [Scalar α]

theorem copy_eq (wf : f.WellFormed) (stored : f.StoredIn m) :
    f.copy m = .ok ⟨f.toRegistry, .unused⟩ := by
  have threads := wf.threads
  have made : new? f.threads = .ok (ofThreads f.threads : Objective α) := by
    rw [new?, if_neg (by omega), Int.toNat_natCast]
  have start : Drafts { (ofThreads f.threads : Objective α) with
      hessianEnabled := f.hessianEnabled, constant := f.constant } .unused
      ⟨f.constant, [], [], .empty, 0, 0, f.threads, f.hessianEnabled⟩ :=
    ⟨Registry.wellFormed_empty threads, rfl, rfl, rfl⟩
  obtain ⟨g₁, registered, drafts⟩ := start.addVariables wf.vars stored (by simpa using wf.distinct)
  obtain ⟨g₂, held, drafts⟩ := drafts.setConstants (m := m) (f.vars.filter (·.isConstant))
    fun v member => by
      simpa [Function.comp_def, Variable.renewed, Variable.unplaced] using
        ⟨v, (List.mem_filter.1 member).1, rfl⟩
  rw [List.nil_append, map_held_renewed wf.distinct] at drafts
  obtain ⟨g₃, bound, drafts⟩ := drafts.addTerms (m := m) (r := f.toRegistry) rfl wf.terms
  have same : g₃.toRegistry = f.toRegistry :=
    drafts.wellFormed.eq_of_outline_eq wf drafts.outline_eq
  have rebuilt : (rebuild f.toRegistry).run m { (ofThreads f.threads : Objective α) with
      hessianEnabled := f.hessianEnabled, constant := f.constant } = (.ok (), g₃) := by
    simp only [rebuild, Edit.run_bind, registered, held]
    exact bound
  rw [copy, made, ok_bind, rebuilt, ← same, ← drafts.workspace]
  rfl

end Objective

end Descent
