import Descent.Objective.Mutation
import Descent.Proofs.Computation
import Descent.Proofs.Registry.Growth

namespace Descent

variable {α : Type}

namespace Objective

def become (f : Objective α) (r : Registry α) : Objective α := ⟨r, f.workspace.invalidate⟩

variable {f : Objective α}

/-! ## Variables -/

theorem run_enter (wf : f.WellFormed) {v : Variable α}
    (fresh : v.storage ∉ f.vars.map Variable.storage) (free : v.isConstant = false)
    (last : v.globalIndex = f.scalars) (m : Memory α) :
    (enter v).run m f = (.ok (), f.become (f.append v)) := by
  by_cases constants : f.constants = 0
  · simp only [enter, Edit.run_bind, Edit.run_get, Edit.run_set, constants, ne_eq, not_true_eq_false,
      ↓reduceIte, Edit.run_modify, invalidate, become, ← wf.extend_eq fresh constants free last]
  · simp only [enter, Edit.run_bind, Edit.run_get, Edit.run_set, constants, ne_eq, not_false_eq_true,
      ↓reduceIte, relayoutAll, Edit.run_modify, invalidate, become, ← wf.relayout_insert fresh]

theorem checkStorage_ok {m : Memory α} {h : Handle} {dimension : Int}
    (checked : checkStorage m h dimension = .ok ()) : 0 < dimension := by
  unfold checkStorage at checked
  split at checked
  · split at checked
    · cases checked
    · omega
  all_goals cases checked

theorem newVariable_ok {m : Memory α} {h : Handle} {dimension : Int} {change : Option (Change α)}
    {next : Nat} {v : Variable α} (made : newVariable m h dimension change next = .ok v) :
    0 < dimension ∧ (∀ c, change = some c → dimension = c.userDimension) ∧
      v = ⟨h, dimension.toNat, change.elim dimension.toNat Change.solverDimension, next, false,
        change⟩ := by
  unfold newVariable at made
  obtain ⟨⟨⟩, checked, made⟩ := bind_eq_ok.1 made
  have positive := checkStorage_ok checked
  cases change with
  | none =>
      cases made
      exact ⟨positive, nofun, rfl⟩
  | some c =>
      simp only at made
      split at made
      · cases made
      · rename_i agree
        cases made
        refine ⟨positive, fun c' same => ?_, rfl⟩
        cases same
        exact Decidable.not_not.1 agree

theorem newVariable_fits {m : Memory α} {h : Handle} {dimension : Int} {change : Option (Change α)}
    {next : Nat} {v : Variable α} (made : newVariable m h dimension change next = .ok v)
    (positive : ∀ c, change = some c → 0 < c.solverDimension) : v.Fits := by
  obtain ⟨user, agree, rfl⟩ := newVariable_ok made
  cases change with
  | none => exact ⟨by simpa, by simpa, fun _ => rfl, nofun⟩
  | some c =>
      refine ⟨by simpa, positive c rfl, nofun, fun c' same => ?_⟩
      cases same
      exact ⟨by simp [agree c rfl], rfl⟩

theorem run_register (wf : f.WellFormed) {h : Handle} (fresh : h ∉ f.vars.map Variable.storage)
    (m : Memory α) (dimension : Int) (change : Option (Change α)) :
    (register h dimension change).run m f =
      match newVariable m h dimension change f.scalars with
      | .ok v => (.ok (), f.become (f.append v))
      | .error fault => (.error fault, f) := by
  simp only [register, Edit.run_bind, Edit.run_read, Edit.run_get, Edit.run_lift]
  cases made : newVariable m h dimension change f.scalars with
  | error fault => rfl
  | ok v =>
      obtain ⟨-, -, rfl⟩ := newVariable_ok made
      exact run_enter wf fresh rfl rfl m

theorem changed_ok {v w : Variable α} {dimension : Int} {change : Option (Change α)}
    (made : changed v dimension change = .ok w) :
    (∀ c, change = some c →
      v.userDimension = c.userDimension ∧ v.solverDimension = c.solverDimension) ∧
      w = { v with
        change
        solverDimension := change.elim v.userDimension Change.solverDimension } := by
  simp only [changed] at made
  split at made
  · cases made
  · cases change with
    | none =>
        cases made
        exact ⟨nofun, rfl⟩
    | some c =>
        simp only at made
        split at made
        · cases made
        · rename_i user
          split at made
          · cases made
          · rename_i solver
            cases made
            rw [Decidable.not_not] at user solver
            refine ⟨fun c' same => ?_, by simp [← solver]⟩
            cases same
            exact ⟨user, solver⟩

theorem changed_fits {v w : Variable α} {dimension : Int} {change : Option (Change α)}
    (made : changed v dimension change = .ok w) (fits : v.Fits) : w.Fits := by
  obtain ⟨agree, rfl⟩ := changed_ok made
  cases change with
  | none => exact ⟨fits.user_pos, fits.user_pos, fun _ => rfl, nofun⟩
  | some c =>
      obtain ⟨user, solver⟩ := agree c rfl
      refine ⟨fits.user_pos, by simpa [← solver] using fits.solver_pos, nofun, fun c' same => ?_⟩
      cases same
      exact ⟨user, rfl⟩

theorem changed_plain {v w : Variable α} {dimension : Int} (made : changed v dimension none = .ok w)
    (fits : v.Fits) (plain : v.change = none) : w = v := by
  obtain ⟨-, rfl⟩ := changed_ok made
  have size := fits.unchanged plain
  cases v with
  | mk storage user solver index isConstant change =>
      cases plain
      cases size
      rfl

theorem run_replaceChange (wf : f.WellFormed) {i : Nat} {v : Variable α}
    (at_i : f.vars[i]? = some v) (m : Memory α) (dimension : Int) (change : Option (Change α)) :
    (replaceChange i v dimension change).run m f =
      match changed v dimension change with
      | .ok w => (.ok (), f.become (f.alter i w))
      | .error fault => (.error fault, f) := by
  simp only [replaceChange, Edit.run_bind, Edit.run_lift]
  cases made : changed v dimension change with
  | error fault => rfl
  | ok w =>
      obtain ⟨-, same⟩ := changed_ok made
      by_cases size : w.solverDimension = v.solverDimension
      · have laidOut := wf.set_eq at_i (w := w) (by rw [same]) (by rw [same]) size (by rw [same])
        simp only [setVariable, Edit.run_modify, size, ne_eq, not_true_eq_false, ↓reduceIte, invalidate,
          become, ← laidOut]
      · have laidOut := wf.relayout_set at_i (w := w) (by rw [same])
        simp only [setVariable, Edit.run_bind, Edit.run_modify, size, ne_eq, not_false_eq_true,
          ↓reduceIte, relayoutAll, invalidate, become, ← laidOut]

theorem run_setConstant (wf : f.WellFormed) (m : Memory α) (h : Handle) (isConstant : Bool) :
    (setConstant h isConstant).run m f =
      match f.find? h with
      | some (i, v) => (.ok (), f.become (f.alter i { v with isConstant }))
      | none => (.error (.notRegistered .setConstant), f) := by
  simp only [setConstant, Edit.run_bind, Edit.run_get]
  cases found : f.find? h with
  | none => rfl
  | some known =>
      obtain ⟨i, v⟩ := known
      obtain ⟨at_i, -⟩ := wf.find?_eq_some.1 found
      have laidOut := wf.relayout_set at_i (w := { v with isConstant }) rfl
      simp only [setVariable, relayoutAll, Edit.run_bind, Edit.run_modify, invalidate, become,
        ← laidOut]

theorem run_addVariable (wf : f.WellFormed) (m : Memory α) (h : Handle) (dimension : Int)
    (change : Option (Change α)) :
    (addVariable h dimension change).run m f =
      match f.find? h with
      | some (i, v) => match changed v dimension change with
          | .ok w => (.ok (), f.become (f.alter i w))
          | .error fault => (.error fault, f)
      | none => match newVariable m h dimension change f.scalars with
          | .ok v => (.ok (), f.become (f.append v))
          | .error fault => (.error fault, f) := by
  simp only [addVariable, Edit.run_bind, Edit.run_get]
  cases found : f.find? h with
  | none => exact run_register wf (wf.find?_eq_none found) m dimension change
  | some known => exact run_replaceChange wf (wf.find?_eq_some.1 found).1 m dimension change

theorem run_bindArgument (wf : f.WellFormed) (m : Memory α) (t : Term α) (h : Handle) (k : Nat) :
    (bindArgument t h k).run m f =
      match t.dimension k with
      | .error fault => (.error fault, f)
      | .ok dimension => match f.find? h with
          | some (i, v) =>
              if (v.userDimension : Int) = dimension then (.ok i, f)
              else (.error (.argumentDimension k v.userDimension dimension), f)
          | none => match newVariable m h dimension none f.scalars with
              | .ok v => (.ok f.vars.length, f.become (f.append v))
              | .error fault => (.error fault, f) := by
  simp only [bindArgument, Edit.run_bind, Edit.run_lift, Edit.run_get]
  cases t.dimension k with
  | error fault => rfl
  | ok dimension =>
      cases found : f.find? h with
      | some known =>
          obtain ⟨i, v⟩ := known
          simp only [found]
          by_cases same : (v.userDimension : Int) = dimension
          · simp only [same, ne_eq, not_true_eq_false, ↓reduceIte, Edit.run_pure]
          · simp only [same, ne_eq, not_false_eq_true, ↓reduceIte, Edit.run_bind, Edit.run_throw]
      | none =>
          simp only [Edit.run_bind, Edit.run_get, run_addVariable wf, found]
          cases newVariable m h dimension none f.scalars <;> rfl

end Objective

end Descent
