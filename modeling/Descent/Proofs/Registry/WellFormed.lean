import Descent.Proofs.Registry.Layout

/-!
# Well-formed registries

What every operation on a registry keeps. A well-formed registry is determined by its outline, which
leaves out all that is derived: the places of the variables, the directory and the counts of scalars
(`eq_of_outline_eq`). So an operation is described by what it does to the outline, and rolling it back is
a matter of restoring the outline.
-/

namespace Descent

variable {α : Type}

namespace Directory

def ofHandles (handles : List Handle) : Directory := ⟨handles.zipIdx⟩

theorem find?_ofHandles {handles : List Handle} (distinct : handles.Nodup) (h : Handle) (i : Nat) :
    (ofHandles handles).find? h = some i ↔ handles[i]? = some h := by
  suffices general : ∀ k, ((handles.zipIdx k).find? (·.1 = h)).map (·.2) = some i ↔
      k ≤ i ∧ handles[i - k]? = some h by
    simpa [find?, ofHandles] using general 0
  induction handles with
  | nil => simp
  | cons other rest ih =>
      intro k
      obtain ⟨fresh, distinct⟩ := List.nodup_cons.1 distinct
      rw [List.zipIdx_cons]
      by_cases same : other = h
      · subst same
        constructor
        · intro found
          simp only [decide_true, List.find?_cons_of_pos, Option.map_some, Option.some.injEq] at found
          simp [found]
        · rintro ⟨lower, found⟩
          have here : i - k = 0 := by
            cases place : i - k with
            | zero => rfl
            | succ l =>
                rw [place, List.getElem?_cons_succ] at found
                exact absurd (List.mem_of_getElem? found) fresh
          simp [show k = i by omega]
      · simp only [same, decide_false, Bool.false_eq_true, not_false_eq_true,
          List.find?_cons_of_neg, ih distinct (k + 1)]
        constructor
        · rintro ⟨lower, found⟩
          refine ⟨by omega, ?_⟩
          rwa [show i - k = i - (k + 1) + 1 by omega, List.getElem?_cons_succ]
        · rintro ⟨lower, found⟩
          cases place : i - k with
          | zero => simp [place, same] at found
          | succ l =>
              rw [place, List.getElem?_cons_succ] at found
              exact ⟨by omega, by rwa [show i - (k + 1) = l by omega]⟩

theorem insert_ofHandles {handles : List Handle} {h : Handle} (fresh : h ∉ handles) :
    (ofHandles handles).insert h handles.length = ofHandles (handles ++ [h]) := by
  have kept : handles.zipIdx.filter (·.1 ≠ h) = handles.zipIdx := by
    rw [List.filter_eq_self]
    rintro ⟨other, i⟩ member
    have known := List.fst_mem_of_mem_zipIdx member
    exact decide_eq_true fun (same : other = h) => fresh (same ▸ known)
  simp only [insert, erase, ofHandles, kept, List.zipIdx_append, List.zipIdx_singleton, Nat.zero_add]

theorem foldl_erase (handles : List Handle) (d : Directory) :
    handles.foldl erase d = ⟨d.entries.filter (·.1 ∉ handles)⟩ := by
  induction handles generalizing d with
  | nil => exact congrArg Directory.mk (List.filter_eq_self.2 (by simp)).symm
  | cons h rest ih =>
      simp only [List.foldl_cons, ih, erase, List.filter_filter, List.mem_cons, not_or,
        Bool.decide_and, Bool.and_comm]

theorem foldl_erase_ofHandles {handles last : List Handle} (distinct : (handles ++ last).Nodup) :
    last.foldl erase (ofHandles (handles ++ last)) = ofHandles handles := by
  obtain ⟨-, -, apart⟩ := List.nodup_append.1 distinct
  have kept : handles.zipIdx.filter (·.1 ∉ last) = handles.zipIdx := by
    rw [List.filter_eq_self]
    intro e member
    have known := List.fst_mem_of_mem_zipIdx member
    exact decide_eq_true fun again => apart _ known _ again rfl
  have dropped : (last.zipIdx (0 + handles.length)).filter (·.1 ∉ last) = [] := by
    rw [List.filter_eq_nil_iff]
    intro e member
    simpa using List.fst_mem_of_mem_zipIdx member
  rw [foldl_erase, ofHandles, List.zipIdx_append, List.filter_append, kept, dropped,
    List.append_nil, ofHandles]

end Directory

structure Variable.Fits (v : Variable α) : Prop where
  user_pos : 0 < v.userDimension
  solver_pos : 0 < v.solverDimension
  unchanged : v.change = none → v.solverDimension = v.userDimension
  changed : ∀ c, v.change = some c →
    v.userDimension = c.userDimension ∧ v.solverDimension = c.solverDimension

theorem Variable.Fits.update {v : Variable α} (fits : v.Fits) (globalIndex : Nat)
    (isConstant : Bool) : Variable.Fits { v with globalIndex, isConstant } :=
  ⟨fits.user_pos, fits.solver_pos, fits.unchanged, fits.changed⟩

theorem Variable.fits_unplaced {v : Variable α} : v.unplaced.Fits ↔ v.Fits :=
  ⟨fun fits => fits.update v.globalIndex v.isConstant, fun fits => fits.update 0 v.isConstant⟩

structure Binding.Fits (b : Binding α) (dimensions : List Nat) : Prop where
  arity : b.positions.length = b.term.arity
  dimension : ∀ k i : Nat, b.positions[k]? = some i →
    ∃ d, dimensions[i]? = some d ∧ b.term.dimension k = .ok (d : Int)

theorem Binding.Fits.append {b : Binding α} {dimensions : List Nat} (fits : b.Fits dimensions)
    (more : List Nat) : b.Fits (dimensions ++ more) where
  arity := fits.arity
  dimension k i found := by
    obtain ⟨d, at_i, same⟩ := fits.dimension k i found
    obtain ⟨inside, -⟩ := List.getElem?_eq_some_iff.1 at_i
    exact ⟨d, by rw [List.getElem?_append_left inside, at_i], same⟩

theorem Binding.Fits.registered {b : Binding α} {vars : List (Variable α)}
    (fits : b.Fits (vars.map Variable.userDimension)) {k i : Nat} (found : b.positions[k]? = some i) :
    ∃ v, vars[i]? = some v ∧ b.term.dimension k = .ok (v.userDimension : Int) := by
  obtain ⟨d, at_i, same⟩ := fits.dimension k i found
  rw [List.getElem?_map, Option.map_eq_some_iff] at at_i
  obtain ⟨v, at_i, rfl⟩ := at_i
  exact ⟨v, at_i, same⟩

theorem Binding.Fits.exists_variable {b : Binding α} {vars : List (Variable α)}
    (fits : b.Fits (vars.map Variable.userDimension)) {i : Nat} (member : i ∈ b.positions) :
    ∃ v, vars[i]? = some v := by
  obtain ⟨k, found⟩ := List.getElem?_of_mem member
  obtain ⟨v, at_i, -⟩ := fits.registered found
  exact ⟨v, at_i⟩

theorem Binding.Fits.getElem?_arguments {b : Binding α} {r : Registry α}
    (fits : b.Fits (r.vars.map Variable.userDimension)) (k : Nat) :
    (r.arguments b)[k]? = b.positions[k]?.bind (r.vars[·]?) := by
  have known : ∀ i ∈ b.positions, ∃ v, r.vars[i]? = some v := fun i member => fits.exists_variable member
  rw [Registry.arguments]
  generalize b.positions = positions at known
  induction positions generalizing k with
  | nil => rfl
  | cons i rest ih =>
      obtain ⟨v, at_i⟩ := known i List.mem_cons_self
      rw [List.filterMap_cons_some at_i]
      cases k with
      | zero => simp [at_i]
      | succ k => exact ih k fun j member => known j (List.mem_cons_of_mem _ member)

namespace Registry

theorem mem_vars {r : Registry α} {b : Binding α} {v : Variable α} (argument : v ∈ r.arguments b) :
    v ∈ r.vars := by
  obtain ⟨i, -, at_i⟩ := List.mem_filterMap.1 argument
  exact List.mem_of_getElem? at_i

def canonical (r : Registry α) : Registry α :=
  { r with directory := .ofHandles (r.vars.map Variable.storage) }.relayout

/-- A registry without what the rest of it determines. -/
def outline (r : Registry α) : Registry α :=
  { r with
    vars := r.vars.map Variable.unplaced
    directory := .empty
    scalars := 0
    constants := 0 }

/-- What holds of a registry after any sequence of edits. -/
structure WellFormed (r : Registry α) : Prop where
  canonical : r.canonical = r
  distinct : (r.vars.map Variable.storage).Nodup
  vars : ∀ v ∈ r.vars, v.Fits
  terms : ∀ b ∈ r.terms, b.Fits (r.vars.map Variable.userDimension)
  threads : 0 < r.threads

/-! ## Outlines -/

theorem canonical_eq (r : Registry α) : r.canonical = { r with
    vars := placed 0 (extent false r.vars) r.vars
    directory := .ofHandles (r.vars.map Variable.storage)
    scalars := extent false r.vars
    constants := extent true r.vars } := by
  rw [canonical, relayout_eq]

theorem canonical_outline (r : Registry α) : r.outline.canonical = r.canonical := by
  have handles : (r.vars.map Variable.unplaced).map Variable.storage =
      r.vars.map Variable.storage := by
    simp [Function.comp_def, Variable.unplaced]
  simp only [canonical_eq, outline, placed_unplaced, extent_unplaced, handles]

theorem outline_canonical (r : Registry α) : r.canonical.outline = r.outline := by
  simp only [canonical_eq, outline, map_unplaced_placed]

theorem WellFormed.eq_of_outline_eq {r s : Registry α} (wf : r.WellFormed) (wf' : s.WellFormed)
    (same : r.outline = s.outline) : r = s := by
  rw [← wf.canonical, ← wf'.canonical, ← r.canonical_outline, same, s.canonical_outline]

theorem canonical_canonical (r : Registry α) : r.canonical.canonical = r.canonical := by
  rw [← canonical_outline, outline_canonical, canonical_outline]

theorem map_congr_unplaced {β : Type} {f : Variable α → β} (ignores : ∀ v, f v.unplaced = f v)
    {vars others : List (Variable α)}
    (same : vars.map Variable.unplaced = others.map Variable.unplaced) :
    vars.map f = others.map f := by
  have through (l : List (Variable α)) : l.map f = (l.map Variable.unplaced).map f := by
    simp [Function.comp_def, ignores]
  rw [through vars, same, ← through others]

theorem map_canonical {β : Type} {f : Variable α → β} (ignores : ∀ v, f v.unplaced = f v)
    (r : Registry α) : r.canonical.vars.map f = r.vars.map f :=
  map_congr_unplaced ignores (congrArg Registry.vars r.outline_canonical)

theorem wellFormed_canonical {r : Registry α} (distinct : (r.vars.map Variable.storage).Nodup)
    (vars : ∀ v ∈ r.vars, v.Fits)
    (terms : ∀ b ∈ r.terms, b.Fits (r.vars.map Variable.userDimension))
    (threads : 0 < r.threads) : r.canonical.WellFormed where
  canonical := r.canonical_canonical
  distinct := by rwa [map_canonical fun _ => rfl]
  vars v member := by
    have same : r.canonical.vars.map Variable.unplaced = r.vars.map Variable.unplaced :=
      congrArg Registry.vars r.outline_canonical
    obtain ⟨w, member, equal⟩ : ∃ w ∈ r.vars, w.unplaced = v.unplaced := by
      rw [← List.mem_map, ← same]
      exact List.mem_map_of_mem member
    rw [← Variable.fits_unplaced, ← equal, Variable.fits_unplaced]
    exact vars w member
  terms := by
    rw [map_canonical fun _ => rfl]
    exact terms
  threads := threads

theorem wellFormed_empty {constant : α} {threads : Nat} {hessianEnabled : Bool}
    (positive : 0 < threads) :
    WellFormed ⟨constant, [], [], .empty, 0, 0, threads, hessianEnabled⟩ where
  canonical := rfl
  distinct := .nil
  vars := nofun
  terms := nofun
  threads := positive

namespace WellFormed

variable {r : Registry α}

theorem derived (wf : r.WellFormed) : { r with
    vars := placed 0 (extent false r.vars) r.vars
    directory := .ofHandles (r.vars.map Variable.storage)
    scalars := extent false r.vars
    constants := extent true r.vars } = r := by
  rw [← canonical_eq, wf.canonical]

theorem directory (wf : r.WellFormed) : r.directory = .ofHandles (r.vars.map Variable.storage) :=
  (congrArg Registry.directory wf.derived).symm

theorem scalars (wf : r.WellFormed) : r.scalars = extent false r.vars :=
  (congrArg Registry.scalars wf.derived).symm

theorem constants (wf : r.WellFormed) : r.constants = extent true r.vars :=
  (congrArg Registry.constants wf.derived).symm

theorem laidOut (wf : r.WellFormed) : placed 0 r.scalars r.vars = r.vars := by
  rw [wf.scalars]
  exact congrArg Registry.vars wf.derived

theorem indexOf?_eq_some (wf : r.WellFormed) (h : Handle) (i : Nat) :
    r.indexOf? h = some i ↔ ∃ v, r.vars[i]? = some v ∧ v.storage = h := by
  rw [indexOf?, wf.directory, Directory.find?_ofHandles wf.distinct, List.getElem?_map,
    Option.map_eq_some_iff]

theorem find?_eq_some (wf : r.WellFormed) {h : Handle} {i : Nat} {v : Variable α} :
    r.find? h = some (i, v) ↔ r.vars[i]? = some v ∧ v.storage = h := by
  simp only [Registry.find?, Option.bind_eq_bind, Option.bind_eq_some_iff, wf.indexOf?_eq_some,
    Option.pure_def, Option.some.injEq, Prod.mk.injEq]
  constructor
  · rintro ⟨j, ⟨w, at_j, stored⟩, u, found, rfl, rfl⟩
    rw [at_j] at found
    cases found
    exact ⟨at_j, stored⟩
  · rintro ⟨at_i, stored⟩
    exact ⟨i, ⟨v, at_i, stored⟩, v, at_i, rfl, rfl⟩

theorem find?_eq_none (wf : r.WellFormed) {h : Handle} (missing : r.find? h = none) :
    h ∉ r.vars.map Variable.storage := by
  intro member
  obtain ⟨i, found⟩ := List.getElem?_of_mem member
  rw [List.getElem?_map, Option.map_eq_some_iff] at found
  obtain ⟨v, at_i, stored⟩ := found
  rw [wf.find?_eq_some.2 ⟨at_i, stored⟩] at missing
  cases missing

theorem find?_of_fresh (wf : r.WellFormed) {h : Handle} (fresh : h ∉ r.vars.map Variable.storage) :
    r.find? h = none := by
  rw [Option.eq_none_iff_forall_ne_some]
  rintro ⟨i, v⟩ found
  obtain ⟨at_i, same⟩ := wf.find?_eq_some.1 found
  exact fresh (same ▸ List.mem_map_of_mem (List.mem_of_getElem? at_i))

theorem tiles_free (wf : r.WellFormed) : Tiles 0 (r.vars.filter (!·.isConstant)) r.scalars := by
  have tiles := Registry.tiles_free 0 r.scalars r.vars
  rwa [wf.laidOut, Nat.zero_add, ← wf.scalars] at tiles

theorem tiles_constant (wf : r.WellFormed) :
    Tiles r.scalars (r.vars.filter (·.isConstant)) (r.scalars + r.constants) := by
  have tiles := Registry.tiles_constant 0 r.scalars r.vars
  rwa [wf.laidOut, ← wf.constants] at tiles

theorem apart (wf : r.WellFormed) {i j : Nat} {v w : Variable α} (at_i : r.vars[i]? = some v)
    (at_j : r.vars[j]? = some w) (free : v.isConstant = false) (free' : w.isConstant = false)
    (other : i ≠ j) : v.globalIndex + v.solverDimension ≤ w.globalIndex ∨
      w.globalIndex + w.solverDimension ≤ v.globalIndex := by
  have apart := List.pairwise_iff_getElem.1 (List.pairwise_filter.1 wf.tiles_free.pairwise)
  obtain ⟨inside, rfl⟩ := List.getElem?_eq_some_iff.1 at_i
  obtain ⟨inside', rfl⟩ := List.getElem?_eq_some_iff.1 at_j
  rcases Nat.lt_or_gt_of_ne other with before | behind
  · exact .inl (apart i j inside inside' before (by simp [free]) (by simp [free']))
  · exact .inr (apart j i inside' inside behind (by simp [free']) (by simp [free]))

end WellFormed

end Registry

end Descent
