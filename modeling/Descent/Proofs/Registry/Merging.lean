import Mathlib
import Descent.Proofs.Registry.Copy
import Descent.Proofs.Registry.Visible

namespace Descent

variable {α : Type}

def Binding.rebound (handles : List Handle) (r : Registry α) (b : Binding α) : Binding α :=
  ⟨b.term, (r.arguments b).map fun v => handles.idxOf v.storage⟩

structure Variable.Mergeable (m : Memory α) (v : Variable α) : Prop where
  plain : v.change = none
  stored : ∃ block offset, m.object? v.storage = some (.array .double [v.userDimension] block offset)

theorem Variable.Mergeable.sameDimension {m : Memory α} {v w : Variable α} (mergeable : v.Mergeable m)
    (mergeable' : w.Mergeable m) (same : v.storage = w.storage) : v.userDimension = w.userDimension := by
  obtain ⟨block, offset, array⟩ := mergeable.stored
  obtain ⟨block', offset', array'⟩ := mergeable'.stored
  rw [same, array'] at array
  simp only [Option.some.injEq, Object.array.injEq, List.cons.injEq, and_true, true_and] at array
  exact array.1.symm

theorem Variable.Mergeable.update {m : Memory α} {v : Variable α} (mergeable : v.Mergeable m)
    (globalIndex : Nat) (isConstant : Bool) : Variable.Mergeable m { v with globalIndex, isConstant } :=
  ⟨mergeable.plain, mergeable.stored⟩

namespace Registry

variable {r s t : Registry α} {m : Memory α}

def unregistered (handles : List Handle) (vars : List (Variable α)) : List (Variable α) :=
  vars.filter fun v => v.storage ∉ handles

/-- What the sum of two objectives is, as the first one after the second was added to it. -/
structure Merged [Scalar α] (r s t : Registry α) : Prop where
  constant : t.constant = r.constant + s.constant
  vars : t.vars.map Variable.unplaced = r.vars.map Variable.unplaced ++
    (unregistered (r.vars.map Variable.storage) s.vars).map Variable.renewed
  distinct : (t.vars.map Variable.storage).Nodup
  terms : t.terms = r.terms ++ s.terms.map (Binding.rebound (t.vars.map Variable.storage) s)
  kept : ∀ b ∈ r.terms, (t.arguments b).map Variable.storage = (r.arguments b).map Variable.storage
  bound : ∀ b ∈ s.terms,
    (t.arguments (b.rebound (t.vars.map Variable.storage) s)).map Variable.storage =
      (s.arguments b).map Variable.storage
  threads : t.threads = r.threads
  hessianEnabled : t.hessianEnabled = r.hessianEnabled

theorem storages_of_newcomers {news : List (Variable α)}
    (vars : t.vars.map Variable.unplaced = r.vars.map Variable.unplaced ++ news.map Variable.renewed) :
    t.vars.map Variable.storage = r.vars.map Variable.storage ++ news.map Variable.storage := by
  have storages := congrArg (List.map Variable.storage) vars
  simpa [Function.comp_def, Variable.renewed, Variable.unplaced] using storages

theorem storages_of_grown {handles : List Handle} {b : Binding α}
    (grown : s.vars.map Variable.storage = r.vars.map Variable.storage ++ handles)
    (fits : b.Fits (r.vars.map Variable.userDimension)) :
    (s.arguments b).map Variable.storage = (r.arguments b).map Variable.storage := by
  rw [storages_arguments, storages_arguments, grown]
  refine List.filterMap_congr fun i member => ?_
  obtain ⟨v, at_i⟩ := fits.exists_variable member
  rw [List.getElem?_append_left (by simpa using (List.getElem?_eq_some_iff.1 at_i).1)]

section

variable {b : Binding α} (known : ∀ v ∈ s.vars, v.storage ∈ r.vars.map Variable.storage)

include known

theorem storages_rebound :
    (r.arguments (b.rebound (r.vars.map Variable.storage) s)).map Variable.storage =
      (s.arguments b).map Variable.storage := by
  rw [storages_arguments, Binding.rebound, List.filterMap_map]
  refine (List.filterMap_congr fun v member => ?_).trans (congrFun List.filterMap_eq_map _)
  exact List.getElem?_idxOf (known v (mem_vars member))

theorem fits_rebound (fits : b.Fits (s.vars.map Variable.userDimension))
    (ready : ∀ v ∈ r.vars, v.Mergeable m) (ready' : ∀ v ∈ s.vars, v.Mergeable m) :
    (b.rebound (r.vars.map Variable.storage) s).Fits (r.vars.map Variable.userDimension) where
  arity := by rw [Binding.rebound, List.length_map, fits.length_arguments, fits.arity]
  dimension k i found := by
    rw [Binding.rebound, List.getElem?_map, Option.map_eq_some_iff] at found
    obtain ⟨v, argument, rfl⟩ := found
    have member := mem_vars (List.mem_of_getElem? argument)
    have there := List.getElem?_idxOf (known v member)
    rw [List.getElem?_map, Option.map_eq_some_iff] at there
    obtain ⟨w, at_w, stored⟩ := there
    rw [fits.getElem?_arguments, Option.bind_eq_some_iff] at argument
    obtain ⟨p, found, at_p⟩ := argument
    obtain ⟨u, at_p', dimension⟩ := fits.registered found
    obtain rfl : v = u := Option.some.inj (at_p.symm.trans at_p')
    have equal := (ready w (List.mem_of_getElem? at_w)).sameDimension (ready' v member) stored
    exact ⟨v.userDimension, by rw [List.getElem?_map, at_w, Option.map_some, equal], dimension⟩

end

end Registry

namespace Objective

open Registry

variable {f g : Objective α} {w : Workspace α} {o r : Registry α} {m : Memory α}

theorem Drafts.mergeable (drafts : g.Drafts w o) (ready : ∀ u ∈ o.vars, u.Mergeable m) :
    ∀ u ∈ g.vars, u.Mergeable m := by
  intro u member
  rw [← drafts.outline_eq] at ready
  obtain ⟨plain, stored⟩ := ready u.unplaced (List.mem_map_of_mem member)
  exact ⟨plain, stored⟩

theorem Drafts.addKnown (drafts : g.Drafts w o) (ready : ∀ u ∈ o.vars, u.Mergeable m) {v : Variable α}
    (mergeable : v.Mergeable m) (known : v.storage ∈ o.vars.map Variable.storage) :
    ∃ g', (Objective.addVariable v.storage v.userDimension none).run m g = (.ok (), g') ∧ g'.Drafts w o := by
  have wf := drafts.wellFormed
  obtain ⟨i, u, at_i, stored⟩ := drafts.exists_of_known known
  have member := List.mem_of_getElem? at_i
  have mergeable' := drafts.mergeable ready u member
  have same : u.userDimension = v.userDimension := mergeable'.sameDimension mergeable stored
  have made : changed u v.userDimension none =
      .ok { u with change := none, solverDimension := u.userDimension } := by
    simp only [changed, same, ne_eq, not_true_eq_false, ↓reduceIte]
    rfl
  have equal := changed_plain made (wf.vars u member) mergeable'.plain
  refine ⟨g.become g.toRegistry, ?_, ?_⟩
  · rw [run_addVariable wf, wf.find?_eq_some.2 ⟨at_i, stored⟩]
    simp only [made, equal, wf.alter_self at_i]
  · have drafts' := drafts.become wf
    rwa [drafts.outline_eq] at drafts'

theorem Drafts.mergeVariables {vs : List (Variable α)} (drafts : g.Drafts w o)
    (ready : ∀ u ∈ o.vars, u.Mergeable m) (fits : ∀ v ∈ vs, v.Fits) (ready' : ∀ v ∈ vs, v.Mergeable m)
    (distinct : (vs.map Variable.storage).Nodup) :
    ∃ g', (vs.forM fun v => Objective.addVariable v.storage v.userDimension none).run m g = (.ok (), g') ∧
      g'.Drafts w { o with vars := o.vars ++
        (unregistered (o.vars.map Variable.storage) vs).map Variable.renewed } := by
  induction vs generalizing g o with
  | nil => exact ⟨g, rfl, by simpa [unregistered] using drafts⟩
  | cons v rest ih =>
      obtain ⟨here, fits⟩ := List.forall_mem_cons.1 fits
      obtain ⟨mergeable, ready'⟩ := List.forall_mem_cons.1 ready'
      obtain ⟨fresh, distinct⟩ := List.nodup_cons.1 distinct
      by_cases known : v.storage ∈ o.vars.map Variable.storage
      · obtain ⟨g₁, first, drafts'⟩ := drafts.addKnown ready mergeable known
        obtain ⟨g', run, drafts'⟩ := ih drafts' ready fits ready' distinct
        refine ⟨g', ?_, ?_⟩
        · rw [List.forM, Edit.run_bind, first]
          exact run
        · rwa [unregistered, List.filter_cons_of_neg (by simpa using known)]
      · obtain ⟨block, offset, array⟩ := mergeable.stored
        obtain ⟨g₁, first, drafts'⟩ := drafts.addVariable here known array
        rw [mergeable.plain] at first
        obtain ⟨g', run, drafts'⟩ := ih drafts' (List.forall_mem_append.2
          ⟨ready, List.forall_mem_singleton.2 ⟨mergeable.plain, mergeable.stored⟩⟩) fits ready' distinct
        refine ⟨g', ?_, ?_⟩
        · rw [List.forM, Edit.run_bind, first]
          exact run
        · -- the arrays of later variables are others than this one
          have others : unregistered ((o.vars ++ [v.renewed]).map Variable.storage) rest =
              unregistered (o.vars.map Variable.storage) rest := by
            refine List.filter_congr fun u later => ?_
            have differs : u.storage ≠ v.storage := fun same => fresh (same ▸ List.mem_map_of_mem later)
            simp [Variable.renewed, Variable.unplaced, differs]
          rw [others] at drafts'
          rwa [unregistered, List.filter_cons_of_pos (by simpa using known), List.map_cons, List.append_cons]

theorem Drafts.rebindTerms {bs : List (Binding α)} (drafts : g.Drafts w o)
    (ready : ∀ u ∈ o.vars, u.Mergeable m) (ready' : ∀ v ∈ r.vars, v.Mergeable m)
    (known : ∀ v ∈ r.vars, v.storage ∈ o.vars.map Variable.storage)
    (fits : ∀ b ∈ bs, b.Fits (r.vars.map Variable.userDimension)) :
    ∃ g', (bs.forM fun b => Objective.addTerm b.term ((r.arguments b).map (·.storage))).run m g =
      (.ok (), g') ∧ g'.Drafts w { o with
        terms := o.terms ++ bs.map (Binding.rebound (o.vars.map Variable.storage) r) } := by
  induction bs generalizing g o with
  | nil => exact ⟨g, rfl, by simpa using drafts⟩
  | cons b rest ih =>
      obtain ⟨here, fits⟩ := List.forall_mem_cons.1 fits
      have known' : ∀ v ∈ r.vars, v.storage ∈ g.vars.map Variable.storage := drafts.storages ▸ known
      have bound := Registry.fits_rebound known' here (drafts.mergeable ready) ready'
      have first := run_addTerm_known (m := m) drafts.wellFormed bound
      rw [Registry.storages_rebound known'] at first
      have outline : (g.bind (b.rebound (g.vars.map Variable.storage) r)).outline = { o with
          terms := o.terms ++ [b.rebound (o.vars.map Variable.storage) r] } := by
        rw [drafts.storages, ← drafts.outline_eq]
        rfl
      have drafts' := drafts.become (drafts.wellFormed.bind bound)
      rw [outline] at drafts'
      obtain ⟨g', run, drafts'⟩ := ih drafts' ready known fits
      refine ⟨g', ?_, by simpa using drafts'⟩
      rw [List.forM, Edit.run_bind]
      simp only [Binding.rebound] at first
      rw [first]
      exact run

theorem checkMerge_of_mergeable {r s : Registry α} (wf : r.WellFormed) (ready : ∀ v ∈ r.vars, v.Mergeable m)
    (ready' : ∀ v ∈ s.vars, v.Mergeable m) : checkMerge r s = .ok () := by
  have plain : ¬(r.vars ++ s.vars).any (·.change.isSome) = true := by
    rw [List.any_eq_true]
    rintro ⟨v, member, changed⟩
    have mergeable : v.Mergeable m := (List.mem_append.1 member).elim (ready v) (ready' v)
    rw [mergeable.plain] at changed
    cases changed
  have same : ¬(s.vars.any fun v =>
      (r.find? v.storage).any fun known => known.2.userDimension != v.userDimension) = true := by
    rw [List.any_eq_true]
    rintro ⟨v, member, differs⟩
    cases found : r.find? v.storage with
    | none =>
        rw [found] at differs
        cases differs
    | some known =>
        obtain ⟨at_i, stored⟩ := wf.find?_eq_some.1 found
        have equal := (ready known.2 (List.mem_of_getElem? at_i)).sameDimension (ready' v member) stored
        simp [found, equal] at differs
  rw [checkMerge, if_neg plain, if_neg same]
  rfl

variable [Scalar α]

theorem Drafts.merge (drafts : f.Drafts w f.outline) (ready : ∀ v ∈ f.vars, v.Mergeable m)
    (wf : r.WellFormed) (ready' : ∀ v ∈ r.vars, v.Mergeable m) :
    ∃ h, (Objective.merge r).run m f = (.ok (), h) ∧ Merged f.toRegistry r h.toRegistry := by
  have checked := checkMerge_of_mergeable drafts.wellFormed ready ready'
  have outlined : ∀ u ∈ f.outline.vars, u.Mergeable m :=
    List.forall_mem_map.2 fun v member => (ready v member).update 0 v.isConstant
  obtain ⟨f₁, registered, drafts₁⟩ := drafts.mergeVariables outlined wf.vars ready' wf.distinct
  have ready₁ : ∀ u ∈ f.outline.vars ++
      (unregistered (f.outline.vars.map Variable.storage) r.vars).map Variable.renewed, u.Mergeable m :=
    List.forall_mem_append.2 ⟨outlined, List.forall_mem_map.2 fun v fresh =>
      (ready' v (List.mem_filter.1 fresh).1).update 0 false⟩
  have known : ∀ v ∈ r.vars, v.storage ∈ f₁.vars.map Variable.storage := by
    intro v member
    rw [← drafts₁.storages, List.map_append, List.mem_append]
    by_cases old : v.storage ∈ f.outline.vars.map Variable.storage
    · exact .inl old
    · have fresh : v ∈ unregistered (f.outline.vars.map Variable.storage) r.vars :=
        List.mem_filter.2 ⟨member, decide_eq_true old⟩
      exact .inr (List.mem_map.2 ⟨v.renewed, List.mem_map_of_mem fresh, rfl⟩)
  obtain ⟨f₂, bound, drafts₂⟩ := drafts₁.rebindTerms ready₁ ready' (drafts₁.storages ▸ known) wf.terms
  have same : f₂.vars.map Variable.storage = f₁.vars.map Variable.storage :=
    drafts₂.storages.symm.trans drafts₁.storages
  have outline := drafts₂.outline_eq
  rw [drafts₁.storages, ← same, drafts.storages] at outline
  have vars := congrArg Registry.vars outline
  refine ⟨{ f₂ with constant := f₂.constant + r.constant }, ?_, ?_⟩
  · simp only [Objective.merge, Edit.run_bind, Edit.run_get, Edit.run_lift, checked, Edit.run_tryCatch, adopt,
      registered, bound, addNumber, Edit.run_modify]
  · exact {
      constant := congrArg (fun s => s.constant + r.constant) outline
      vars
      distinct := drafts₂.wellFormed.distinct
      terms := congrArg Registry.terms outline
      kept := fun b member => Registry.storages_of_grown (Registry.storages_of_newcomers vars)
        (drafts.wellFormed.terms b member)
      bound := fun b _ => Registry.storages_rebound (same ▸ known)
      threads := (congrArg Registry.threads outline :)
      hessianEnabled := (congrArg Registry.hessianEnabled outline :) }

theorem exists_merge (wf : f.WellFormed) (ready : ∀ v ∈ f.vars, v.Mergeable m)
    (wf' : r.WellFormed) (ready' : ∀ v ∈ r.vars, v.Mergeable m) :
    ∃ h, (merge r).run m f = (.ok (), h) ∧ Merged f.toRegistry r h.toRegistry := by
  have drafts : Drafts ⟨f.toRegistry, .unused⟩ .unused f.outline := ⟨wf, rfl, rfl, rfl⟩
  obtain ⟨h, ran, merged⟩ := drafts.merge ready wf' ready'
  -- the run does not look at the workspace
  have agreed := blind_merge r m f ⟨f.toRegistry, .unused⟩ rfl
  rw [show StateT.run (ExceptT.run (ReaderT.run (merge r) m)) ⟨f.toRegistry, .unused⟩ = (.ok (), h)
    from ran] at agreed
  obtain ⟨result, registry⟩ := agreed
  refine ⟨((merge r).run m f).2, Prod.ext result rfl, ?_⟩
  rw [show ((merge r).run m f).2.toRegistry = h.toRegistry from registry]
  exact merged

end Objective

end Descent
