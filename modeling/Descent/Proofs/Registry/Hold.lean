import Mathlib
import Descent.Proofs.Registry.Copy

namespace Descent

variable {α : Type}

theorem forall₂_getElem? {β γ : Type} {R : β → γ → Prop} {l : List β} {l' : List γ}
    (all : List.Forall₂ R l l') {i : Nat} {b : β} {c : γ} (at_i : l[i]? = some b)
    (at_i' : l'[i]? = some c) : R b c := by
  obtain ⟨inside, rfl⟩ := List.getElem?_eq_some_iff.1 at_i
  obtain ⟨inside', rfl⟩ := List.getElem?_eq_some_iff.1 at_i'
  exact (List.forall₂_iff_get.1 all).2 i inside inside'

namespace Variable

def without {β : Type} (u : Variable α) (l : List β) : List β :=
  l.take u.globalIndex ++ l.drop (u.globalIndex + u.solverDimension)

/-- Where a scalar is found that has the given index once those of the variable are left out. -/
def skip (u : Variable α) (s : Nat) : Nat := if s < u.globalIndex then s else s + u.solverDimension

theorem getElem?_without {β : Type} (u : Variable α) (l : List β) (s : Nat) :
    (u.without l)[s]? = l[u.skip s]? := by
  rw [without, skip]
  split
  · rename_i before
    by_cases inside : s < l.length
    · rw [List.getElem?_append_left (by rw [List.length_take]; omega), List.getElem?_take_of_lt before]
    · rw [List.getElem?_eq_none (by simp only [List.length_append, List.length_take, List.length_drop]; omega),
        List.getElem?_eq_none (by omega)]
  · rename_i behind
    by_cases enough : u.globalIndex ≤ l.length
    · have front : (l.take u.globalIndex).length = u.globalIndex := by
        rw [List.length_take]
        omega
      rw [List.getElem?_append_right (by omega), front, List.getElem?_drop]
      congr 1
      omega
    · rw [List.getElem?_eq_none (by simp only [List.length_append, List.length_take, List.length_drop]; omega),
        List.getElem?_eq_none (by omega)]

theorem length_without {β : Type} {u : Variable α} {l : List β}
    (inside : u.globalIndex + u.solverDimension ≤ l.length) :
    (u.without l).length + u.solverDimension = l.length := by
  rw [without, List.length_append, List.length_take, List.length_drop]
  omega

theorem skip_inj {u : Variable α} {s s' : Nat} : u.skip s = u.skip s' ↔ s = s' := by
  refine ⟨fun same => ?_, congrArg u.skip⟩
  unfold skip at same
  split at same <;> split at same <;> omega

theorem skip_outside (u : Variable α) (s : Nat) :
    ¬(u.globalIndex ≤ u.skip s ∧ u.skip s < u.globalIndex + u.solverDimension) := by
  unfold skip
  split <;> omega

theorem skip_lt_iff {u : Variable α} {n n' s : Nat} (inside : u.globalIndex + u.solverDimension ≤ n)
    (rest : n' + u.solverDimension = n) : u.skip s < n ↔ s < n' := by
  unfold skip
  split <;> omega

/-- What becomes of a variable where a free one is held constant. -/
inductive Restricts (u : Variable α) : Variable α → Variable α → Prop
  | held (index : Nat) : Restricts u u { u with isConstant := true, globalIndex := index }
  | constant {v : Variable α} (constant : v.isConstant = true) (index : Nat) :
      Restricts u v { v with globalIndex := index }
  | free {v : Variable α} (free : v.isConstant = false) (index : Nat)
      (moved : ∀ c < v.solverDimension, u.skip (index + c) = v.globalIndex + c) :
      Restricts u v { v with globalIndex := index }

theorem Restricts.userDimension_eq {u v w : Variable α} (restricts : u.Restricts v w) :
    w.userDimension = v.userDimension := by
  cases restricts <;> rfl

theorem Restricts.storage_eq {u v w : Variable α} (restricts : u.Restricts v w) :
    w.storage = v.storage := by
  cases restricts <;> rfl

theorem Restricts.change_eq {u v w : Variable α} (restricts : u.Restricts v w) :
    w.change = v.change := by
  cases restricts <;> rfl

theorem Restricts.free_of_free {u v w : Variable α} (restricts : u.Restricts v w)
    (free : w.isConstant = false) : v.isConstant = false := by
  cases restricts with
  | held index => cases free
  | constant constant index => exact free
  | free free index moved => exact free

end Variable

namespace Registry

open Variable

theorem length_placed (free constant : Nat) (vars : List (Variable α)) :
    (placed free constant vars).length = vars.length := by
  have same := congrArg List.length (map_unplaced_placed free constant vars)
  rwa [List.length_map, List.length_map] at same

theorem restricts_placed {u : Variable α} {free free' : Nat} (constant constant' : Nat)
    {vars : List (Variable α)} (moved : ∀ s < extent false vars, u.skip (free' + s) = free + s) :
    List.Forall₂ u.Restricts (placed free constant vars) (placed free' constant' vars) := by
  induction vars generalizing free free' constant constant' with
  | nil => exact .nil
  | cons v rest ih =>
      cases kind : v.isConstant with
      | true =>
          rw [placed, placed, if_pos kind, if_pos kind]
          refine .cons (.constant (v := { v with globalIndex := constant }) kind constant') ?_
          exact ih _ _ fun s inside => moved s (by simpa [extent, kind] using inside)
      | false =>
          have size : extent false (v :: rest) = v.solverDimension + extent false rest := by
            simp [extent, kind]
          rw [placed, placed, if_neg (by simp [kind]), if_neg (by simp [kind])]
          refine .cons (.free (v := { v with globalIndex := free }) kind free' ?_) ?_
          · exact fun c inside => moved c (size ▸ Nat.lt_add_right _ inside)
          · refine ih _ _ fun s inside => ?_
            rw [Nat.add_assoc, Nat.add_assoc]
            exact moved (v.solverDimension + s) (by omega)

structure Restricts (r s : Registry α) (u : Variable α) : Prop where
  member : u ∈ r.vars
  free : u.isConstant = false
  fits : ∀ v ∈ r.vars, v.Fits
  last : u.globalIndex + u.solverDimension ≤ r.scalars
  vars : List.Forall₂ u.Restricts r.vars s.vars
  terms : s.terms = r.terms
  constant : s.constant = r.constant
  threads : s.threads = r.threads
  hessianEnabled : s.hessianEnabled = r.hessianEnabled
  scalars : s.scalars + u.solverDimension = r.scalars
  size : s.scalars + s.constants = r.scalars + r.constants

def hold (r : Registry α) (i : Nat) (u : Variable α) : Registry α :=
  r.alter i { u with isConstant := true }

variable {r : Registry α} {i : Nat} {u : Variable α}

theorem WellFormed.hold (wf : r.WellFormed) (at_i : r.vars[i]? = some u) : (r.hold i u).WellFormed :=
  wf.alter at_i rfl rfl ((wf.vars u (List.mem_of_getElem? at_i)).update u.globalIndex true)

theorem WellFormed.restricts_hold (wf : r.WellFormed) (at_i : r.vars[i]? = some u)
    (free : u.isConstant = false) : r.Restricts (r.hold i u) u := by
  obtain ⟨inside, here⟩ := List.getElem?_eq_some_iff.1 at_i
  obtain ⟨before, behind, split, -, changed⟩ : ∃ before behind : List (Variable α),
      r.vars = before ++ r.vars[i] :: behind ∧ before.length = i ∧
        r.vars.set i { u with isConstant := true } =
          before ++ { u with isConstant := true } :: behind :=
    List.exists_of_set inside
  rw [here] at split
  have laidOut := wf.laidOut
  rw [split, placed_append, placed, if_neg (by simp [free])] at laidOut
  have index : { u with globalIndex := 0 + extent false before } = u :=
    (List.cons.inj (List.append_inj laidOut (length_placed _ _ _)).2).1
  have first : u.globalIndex = extent false before := by
    rw [← index]
    exact Nat.zero_add _
  have extents (constant : Bool) (v : Variable α) : extent constant (before ++ v :: behind) =
      extent constant before + (if v.isConstant = constant then v.solverDimension else 0) +
        extent constant behind := by
    by_cases kind : v.isConstant = constant <;> simp [extent, kind, Nat.add_assoc]
  have held : (r.hold i u).vars = placed 0 (r.hold i u).scalars
      (before ++ { u with isConstant := true } :: behind) ∧
      (r.hold i u).scalars = extent false before + extent false behind ∧
      (r.hold i u).constants = extent true before + u.solverDimension + extent true behind := by
    rw [Registry.hold, Registry.alter, canonical_eq]
    simp only [changed, extents]
    simp
  obtain ⟨vars, scalars, constants⟩ := held
  have member : u ∈ r.vars.filter (!·.isConstant) :=
    List.mem_filter.2 ⟨List.mem_of_getElem? at_i, by simp [free]⟩
  refine {
    member := List.mem_of_getElem? at_i, free, fits := wf.vars, last := wf.tiles_free.le_stop member
    vars := ?_, terms := rfl, constant := rfl, threads := rfl, hessianEnabled := rfl, scalars := ?_, size := ?_ }
  -- the variables in front keep their places, and those behind move up
  · rw [vars, split, ← laidOut, placed_append, placed, if_pos rfl]
    refine List.rel_append (restricts_placed _ _ fun s inside => ?_) (.cons ?_ ?_)
    · rw [skip, if_pos (by omega)]
    · rw [index]
      exact .held _
    · refine restricts_placed _ _ fun s _ => ?_
      rw [skip, if_neg (by omega)]
      omega
  · rw [scalars, wf.scalars, split, extents, if_pos free]
    omega
  · rw [scalars, constants, wf.scalars, wf.constants, split, extents, extents, if_pos free,
      if_neg (by simp [free])]
    omega

theorem WellFormed.release_hold (wf : r.WellFormed) (at_i : r.vars[i]? = some u)
    (free : u.isConstant = false) {v : Variable α} (held : (r.hold i u).vars[i]? = some v) :
    (r.hold i u).alter i { v with isConstant := false } = r := by
  have wf' := wf.hold at_i
  have same : ({ v with isConstant := false } : Variable α).unplaced = u.unplaced := by
    have restricts := forall₂_getElem? (wf.restricts_hold at_i free).vars at_i held
    cases restricts <;> simp [unplaced, free]
  refine WellFormed.eq_of_outline_eq (wf'.alter held rfl rfl ?_) wf ?_
  · exact (wf'.vars v (List.mem_of_getElem? held)).update v.globalIndex false
  · have known : r.outline.vars[i]? = some u.unplaced := by
      rw [outline, List.getElem?_map, at_i, Option.map_some]
    obtain ⟨inside, here⟩ := List.getElem?_eq_some_iff.1 known
    rw [outline_alter, Registry.hold, outline_alter, same]
    simp only [List.set_set]
    rw [← here, List.set_getElem_self]

theorem WellFormed.find?_hold (wf : r.WellFormed) {h : Handle} (found : r.find? h = some (i, u))
    (free : u.isConstant = false) :
    ∃ v, (r.hold i u).find? h = some (i, v) ∧ (r.hold i u).alter i { v with isConstant := false } = r := by
  obtain ⟨at_i, stored⟩ := wf.find?_eq_some.1 found
  have restricts := wf.restricts_hold at_i free
  obtain ⟨inside, -⟩ := List.getElem?_eq_some_iff.1 at_i
  have at_i' := List.getElem?_eq_getElem (restricts.vars.length_eq ▸ inside)
  have here := forall₂_getElem? restricts.vars at_i at_i'
  exact ⟨_, (wf.hold at_i).find?_eq_some.2 ⟨at_i', here.storage_eq.trans stored⟩,
    wf.release_hold at_i free at_i'⟩

theorem WellFormed.free_hold (wf : r.WellFormed) (at_i : r.vars[i]? = some u)
    (free : u.isConstant = false) {j : Nat} {v : Variable α} (other : j ≠ i)
    (at_j : r.vars[j]? = some v) (free' : v.isConstant = false) :
    ∃ w, (r.hold i u).vars[j]? = some w ∧ w.isConstant = false ∧ u.Restricts v w := by
  have restricts := wf.restricts_hold at_i free
  obtain ⟨inside, -⟩ := List.getElem?_eq_some_iff.1 at_j
  obtain ⟨w, at_j'⟩ : ∃ w, (r.hold i u).vars[j]? = some w :=
    ⟨_, List.getElem?_eq_getElem (restricts.vars.length_eq ▸ inside)⟩
  have here := forall₂_getElem? restricts.vars at_j at_j'
  have distinct : v ≠ u := by
    rintro rfl
    refine other ((List.getElem?_inj (by simpa using inside) wf.distinct).1 ?_)
    rw [List.getElem?_map, List.getElem?_map, at_i, at_j]
  refine ⟨w, at_j', ?_, here⟩
  cases here with
  | held index => exact absurd rfl distinct
  | constant constant index => exact absurd (constant.symm.trans free') (by decide)
  | free free index moved => exact free

end Registry

end Descent
