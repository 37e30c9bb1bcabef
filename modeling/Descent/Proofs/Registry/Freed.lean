import Mathlib
import Descent.Proofs.Registry.Merging

namespace Descent

variable {α : Type}

def Variable.freed (v : Variable α) : Variable α := { v with isConstant := false }

namespace Registry

variable {r : Registry α}

def freed (r : Registry α) : Registry α := { r with vars := r.vars.map Variable.freed }.relayout

theorem freed_eq_canonical (wf : r.WellFormed) :
    r.freed = { r with vars := r.vars.map Variable.freed }.canonical := by
  have handles : (r.vars.map Variable.freed).map Variable.storage = r.vars.map Variable.storage := by
    rw [List.map_map]
    rfl
  rw [freed, canonical, handles, ← wf.directory]

theorem WellFormed.freed (wf : r.WellFormed) : r.freed.WellFormed := by
  rw [freed_eq_canonical wf]
  refine wellFormed_canonical ?_ ?_ ?_ wf.threads
  · rw [List.map_map]
    exact wf.distinct
  · exact List.forall_mem_map.2 fun v member => (wf.vars v member).update v.globalIndex false
  · rw [List.map_map]
    exact wf.terms

theorem outline_freed (wf : r.WellFormed) :
    r.freed.outline = { r.outline with vars := r.vars.map Variable.renewed } := by
  rw [freed_eq_canonical wf, outline_canonical, outline, List.map_map]
  rfl

theorem outline_configured (wf : r.WellFormed) (constant : α) (threads : Nat) (hessianEnabled : Bool) :
    outline { r.freed with constant, threads, hessianEnabled } = { r.outline with
      vars := r.vars.map Variable.renewed, constant, threads, hessianEnabled } := by
  rw [show outline { r.freed with constant, threads, hessianEnabled } =
    { r.freed.outline with constant, threads, hessianEnabled } from rfl, outline_freed wf]

theorem free_of_freed (wf : r.WellFormed) : ∀ v ∈ r.freed.vars, v.isConstant = false := by
  intro v member
  have here : v.unplaced ∈ r.freed.outline.vars := List.mem_map_of_mem member
  rw [outline_freed wf] at here
  obtain ⟨u, -, same⟩ := List.mem_map.1 here
  exact (congrArg Variable.isConstant same).symm

theorem freed_eq_self_iff (wf : r.WellFormed) : r.freed = r ↔ ∀ v ∈ r.vars, v.isConstant = false := by
  refine ⟨fun same => ?_, fun free => wf.freed.eq_of_outline_eq wf ?_⟩
  · have free := free_of_freed wf
    rwa [same] at free
  · have vars : r.vars.map Variable.renewed = r.vars.map Variable.unplaced :=
      List.map_congr_left fun v member => by rw [Variable.renewed, ← free v member]; rfl
    rw [outline_freed wf, vars]
    rfl

theorem WellFormed.configured (wf : r.WellFormed) (constant : α) {threads : Nat} (positive : 0 < threads)
    (hessianEnabled : Bool) : WellFormed { r with constant, threads, hessianEnabled } :=
  wf.of_layout_eq rfl rfl rfl rfl wf.terms positive

end Registry

theorem Binding.rebound_self {r : Registry α} (wf : r.WellFormed) {b : Binding α} (member : b ∈ r.terms) :
    b.rebound (r.vars.map Variable.storage) r = b := by
  have fits := wf.terms b member
  have positions : (r.arguments b).map (fun v => (r.vars.map Variable.storage).idxOf v.storage) = b.positions := by
    apply List.ext_getElem?
    intro k
    rw [List.getElem?_map, fits.getElem?_arguments]
    cases found : b.positions[k]? with
    | none => rfl
    | some i =>
        obtain ⟨v, at_i, -⟩ := fits.registered found
        have here : (r.vars.map Variable.storage)[i]? = some v.storage := by rw [List.getElem?_map, at_i]; rfl
        obtain ⟨inside, same⟩ := List.getElem?_eq_some_iff.1 here
        rw [Option.bind_some, at_i, Option.map_some, ← same, wf.distinct.idxOf_getElem]
  rw [Binding.rebound, positions]

namespace Objective

variable {f g h : Objective α} {m : Memory α}

def holdConstants (r : Registry α) : Edit α Unit :=
  (r.vars.filter (·.isConstant)).forM fun v => setConstant v.storage true

theorem run_holdConstants (wf : h.WellFormed) {r : Registry α}
    (known : ∀ v ∈ r.vars, v.storage ∈ h.vars.map Variable.storage) :
    ∃ k, (holdConstants r).run m h = (.ok (), k) ∧ k.WellFormed ∧ k.outline = { h.outline with
      vars := h.outline.vars.map (Variable.held ((r.vars.filter (·.isConstant)).map Variable.storage)) } := by
  have drafts : Drafts ⟨h.toRegistry, .unused⟩ .unused h.outline := ⟨wf, rfl, rfl, rfl⟩
  obtain ⟨k, ran, drafts'⟩ := drafts.setConstants (m := m) (r.vars.filter (·.isConstant)) fun v member =>
    drafts.storages ▸ known v (List.mem_filter.1 member).1
  -- the run does not look at the workspace
  have agreed := Edit.blind_forM (l := r.vars.filter (·.isConstant))
    (fun v _ => blind_setConstant v.storage true) m h ⟨h.toRegistry, .unused⟩ rfl
  rw [show StateT.run (ExceptT.run (ReaderT.run ((r.vars.filter (·.isConstant)).forM
    fun v => setConstant v.storage true) m)) ⟨h.toRegistry, .unused⟩ = (.ok (), k) from ran] at agreed
  obtain ⟨result, registry⟩ := agreed
  have registry : ((holdConstants r).run m h).2.toRegistry = k.toRegistry := registry
  refine ⟨((holdConstants r).run m h).2, Prod.ext result rfl, ?_, ?_⟩
  · rw [registry]
    exact drafts'.wellFormed
  · rw [registry]
    exact drafts'.outline_eq

variable [Scalar α]

theorem Reachable.setConstants (reached : Reachable h) (m : Memory α) (vs : List (Variable α)) :
    Reachable ((vs.forM fun v => setConstant v.storage true).run m h).2 := by
  induction vs generalizing h with
  | nil => exact reached
  | cons v rest ih =>
      have next : Reachable ((setConstant v.storage true).run m h).2 :=
        reached.step (.mutate (c := .setConstant v.storage true) trivial m)
      rw [List.forM, Edit.run_bind]
      rcases ran : (setConstant v.storage true).run m h with ⟨fault | _, h'⟩ <;> rw [ran] at next
      · exact next
      · exact ih next

theorem exists_merge_new (wf : g.WellFormed) (ready : ∀ v ∈ g.vars, v.Mergeable m) {threads : Int}
    (made : new? threads = .ok f) :
    ∃ h, (merge g.toRegistry).run m f = (.ok (), h) ∧ Reachable h ∧ h.toRegistry =
      { g.freed with constant := 0 + g.constant, threads := f.threads, hessianEnabled := true } := by
  have reached : Reachable f := .new made
  obtain ⟨-, rfl⟩ := new?_eq_ok.1 made
  obtain ⟨h, ran, merged⟩ := exists_merge reached.wellFormed nofun wf ready
  have next := reached.step (.mutate (c := .add (.objective g.toRegistry)) trivial m)
  rw [show (Mutation.add (.objective g.toRegistry)).edit.run m _ = (.ok (), h) from ran] at next
  refine ⟨h, ran, next, ?_⟩
  have target := wf.freed.configured (0 + g.constant) reached.wellFormed.threads true
  -- a well-formed registry is determined by its outline
  refine next.wellFormed.eq_of_outline_eq target ?_
  have all : Registry.unregistered [] g.vars = g.vars := List.filter_eq_self.2 fun _ _ => by simp
  have vars : h.vars.map Variable.unplaced = g.vars.map Variable.renewed :=
    merged.vars.trans (congrArg (List.map Variable.renewed) all)
  have storages : h.vars.map Variable.storage = g.vars.map Variable.storage :=
    (Registry.storages_of_newcomers merged.vars).trans (congrArg (List.map Variable.storage) all)
  have terms : h.terms = g.terms := by
    rw [merged.terms, storages]
    exact (List.map_congr_left fun b member => Binding.rebound_self wf member).trans (List.map_id _)
  rw [Registry.outline_configured wf, Registry.outline, vars, terms, merged.constant, merged.threads,
    merged.hessianEnabled]
  rfl

theorem exists_hold (reached : Reachable h) (wf : g.WellFormed) {constant : α} {threads : Nat} {hessianEnabled : Bool}
    (same : h.toRegistry = { g.freed with constant, threads, hessianEnabled }) :
    ∃ k, (holdConstants g.toRegistry).run m h = (.ok (), k) ∧ Reachable k ∧
      k.toRegistry = { g.toRegistry with constant, threads, hessianEnabled } := by
  have outlined := congrArg Registry.outline same
  rw [Registry.outline_configured wf] at outlined
  have storages : h.vars.map Variable.storage = g.vars.map Variable.storage := by
    have vars := congrArg (fun o => o.vars.map Variable.storage) outlined
    simpa [Registry.outline, Function.comp_def, Variable.renewed, Variable.unplaced] using vars
  obtain ⟨k, ran, wf', outline⟩ := run_holdConstants (m := m) reached.wellFormed (r := g.toRegistry)
    fun v member => storages ▸ List.mem_map_of_mem member
  have next := reached.setConstants m (g.vars.filter (·.isConstant))
  refine ⟨k, ran, ?_, ?_⟩
  · rwa [show ((g.vars.filter (·.isConstant)).forM fun v => setConstant v.storage true).run m h = (.ok (), k)
      from ran] at next
  · have positive := reached.wellFormed.threads
    rw [show h.threads = threads from congrArg Registry.threads same] at positive
    refine wf'.eq_of_outline_eq (wf.configured constant positive hessianEnabled) ?_
    rw [outline, outlined, map_held_renewed wf.distinct]
    rfl

end Objective

end Descent
