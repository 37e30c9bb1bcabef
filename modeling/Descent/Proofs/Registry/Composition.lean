import Descent.Proofs.Registry.Edits

namespace Descent

variable {α : Type}

namespace Objective

variable {f g : Objective α} {m : Memory α}

structure Grows (f g : Objective α) : Prop where
  wellFormed : g.WellFormed
  grown : f.Grown g.toRegistry
  derived : g = f ∨ g.workspace = f.workspace.invalidate

theorem Grows.refl (wf : f.WellFormed) : f.Grows f := ⟨wf, .refl _, .inl rfl⟩

theorem Grows.forgotten (grows : f.Grows g) :
    g.workspace.invalidate = f.workspace.invalidate := by
  rcases grows.derived with rfl | forgotten
  · rfl
  · rw [forgotten, Workspace.invalidate, Workspace.invalidate]

theorem Grows.trans {f' : Objective α} (first : f.Grows f') (second : f'.Grows g) : f.Grows g where
  wellFormed := second.wellFormed
  grown := first.grown.trans second.grown
  derived := by
    rcases second.derived with rfl | forgotten
    · exact first.derived
    · exact .inr (forgotten.trans first.forgotten)

theorem grows_append (wf : f.WellFormed) {h : Handle} (missing : f.find? h = none) {dimension : Int}
    {next : Nat} {v : Variable α} (made : newVariable m h dimension none next = .ok v) :
    f.Grows (f.become (f.append v)) := by
  have fits := newVariable_fits made nofun
  obtain ⟨-, -, rfl⟩ := newVariable_ok made
  exact ⟨wf.append fits (wf.find?_eq_none missing), Registry.grown_append _ rfl, .inr rfl⟩

theorem bindArgument_grows {t : Term α} {h : Handle} {k : Nat} {result : Except (Fault α) Nat}
    (wf : f.WellFormed) (run : (bindArgument t h k).run m f = (result, g)) :
    f.Grows g ∧ g.terms = f.terms ∧ ∀ i, result = .ok i →
      ∃ d, (g.vars.map Variable.userDimension)[i]? = some d ∧ t.dimension k = .ok (d : Int) := by
  rw [run_bindArgument wf] at run
  cases asked : t.dimension k with
  | error fault =>
      rw [asked] at run
      cases run
      exact ⟨.refl wf, rfl, nofun⟩
  | ok dimension =>
      simp only [asked] at run
      cases found : f.find? h with
      | some known =>
          obtain ⟨i, v⟩ := known
          simp only [found] at run
          split at run
          · rename_i same
            cases run
            refine ⟨.refl wf, rfl, fun i' here => ⟨v.userDimension, ?_, by rw [same]⟩⟩
            cases here
            simp [(wf.find?_eq_some.1 found).1]
          · cases run
            exact ⟨.refl wf, rfl, nofun⟩
      | none =>
          cases made : newVariable m h dimension none f.scalars with
          | error fault =>
              simp only [found, made] at run
              cases run
              exact ⟨.refl wf, rfl, nofun⟩
          | ok v =>
              simp only [found, made] at run
              cases run
              refine ⟨grows_append wf found made, rfl, fun i here => ⟨dimension.toNat, ?_, ?_⟩⟩
              · cases here
                obtain ⟨-, -, rfl⟩ := newVariable_ok made
                simp only [become, Registry.append]
                rw [Registry.map_canonical fun _ => rfl]
                simp
              · have := (newVariable_ok made).1
                rw [Int.toNat_of_nonneg (by omega)]

theorem bindArguments_grows {t : Term α} {handles : List Handle} {k : Nat}
    {result : Except (Fault α) (List Nat)} (wf : f.WellFormed)
    (run : ((handles.zipIdx k).mapM fun (h, argument) => bindArgument t h argument).run m f =
      (result, g)) :
    f.Grows g ∧ g.terms = f.terms ∧ ∀ positions, result = .ok positions →
      positions.length = handles.length ∧ ∀ j i : Nat, positions[j]? = some i →
        ∃ d, (g.vars.map Variable.userDimension)[i]? = some d ∧ t.dimension (k + j) = .ok (d : Int) := by
  induction handles generalizing k f result with
  | nil =>
      cases run
      refine ⟨.refl wf, rfl, fun positions none => ?_⟩
      cases none
      exact ⟨rfl, nofun⟩
  | cons h rest ih =>
      rw [List.zipIdx_cons, List.mapM_cons, Edit.run_bind] at run
      rcases first : (bindArgument t h k).run m f with ⟨fault | i, f'⟩
      · rw [first] at run
        cases run
        obtain ⟨grows, terms, -⟩ := bindArgument_grows wf first
        exact ⟨grows, terms, nofun⟩
      · rw [first] at run
        obtain ⟨grows, terms, here⟩ := bindArgument_grows wf first
        simp only [Edit.run_bind] at run
        rcases others : ((rest.zipIdx (k + 1)).mapM fun (h, argument) =>
          bindArgument t h argument).run m f' with ⟨fault | positions, g'⟩
        all_goals
          rw [others] at run
          cases run
          obtain ⟨grows', terms', there⟩ := ih grows.wellFormed others
          refine ⟨grows.trans grows', terms'.trans terms, ?_⟩
        · exact nofun
        · rintro _ ⟨⟩
          obtain ⟨length, there⟩ := there positions rfl
          refine ⟨by simp [length], fun j i' found => ?_⟩
          cases j with
          | zero =>
              cases found
              obtain ⟨d, at_i, same⟩ := here i rfl
              exact ⟨d, grows'.grown.dimension at_i, same⟩
          | succ j =>
              obtain ⟨d, at_i, same⟩ := there j i' found
              exact ⟨d, at_i, by rw [← same]; congr 1; omega⟩

theorem addTerm_grows {t : Term α} {handles : List Handle} {result : Except (Fault α) Unit}
    (wf : f.WellFormed) (run : (addTerm t handles).run m f = (result, g)) :
    f.Grows g ∧ ∀ fault, result = .error fault → g.toRegistry = f.toRegistry := by
  by_cases arity : t.arity = handles.length
  · simp only [addTerm, arity, ne_eq, not_true_eq_false, ↓reduceIte, Edit.run_bind, Edit.run_get,
      Edit.run_tryCatch] at run
    rcases arguments : (handles.zipIdx.mapM fun (h, argument) => bindArgument t h argument).run m f
      with ⟨fault | positions, f'⟩
    · -- the handler cuts back to what was there before the first argument
      obtain ⟨grows, terms, -⟩ := bindArguments_grows wf arguments
      have restored := grows.grown.dropVariables wf grows.wellFormed terms
      simp only [arguments, Edit.run_modify, Edit.run_throw, invalidate, restored, grows.forgotten]
        at run
      cases run
      exact ⟨⟨wf, .refl _, .inr rfl⟩, fun _ _ => rfl⟩
    · obtain ⟨grows, -, fits⟩ := bindArguments_grows wf arguments
      obtain ⟨length, dimension⟩ := fits positions rfl
      simp only [arguments, Edit.run_modify, invalidate, grows.forgotten] at run
      cases run
      have bound : (⟨t, positions⟩ : Binding α).Fits (f'.vars.map Variable.userDimension) :=
        ⟨length.trans arity.symm, by simpa using dimension⟩
      refine ⟨⟨grows.wellFormed.bind bound, ?_, .inr rfl⟩, fun _ failed => by cases failed⟩
      exact grows.grown.trans (Registry.grown_bind _ _)
  · simp only [addTerm, arity, ne_eq, not_false_eq_true, ↓reduceIte, Edit.run_bind, Edit.run_throw]
      at run
    cases run
    exact ⟨.refl wf, fun _ _ => rfl⟩

structure Follows (f g : Objective α) : Prop where
  wellFormed : g.WellFormed
  derived : (∃ constant, g = { f with constant }) ∨ g.workspace = f.workspace.invalidate

theorem Follows.refl (wf : f.WellFormed) : f.Follows f := ⟨wf, .inl ⟨f.constant, rfl⟩⟩

theorem Follows.setConstant (wf : f.WellFormed) (constant : α) : f.Follows { f with constant } :=
  ⟨wf.setConstant constant, .inl ⟨constant, rfl⟩⟩

theorem Grows.follows (grows : f.Grows g) : f.Follows g where
  wellFormed := grows.wellFormed
  derived := by
    rcases grows.derived with rfl | forgotten
    · exact .inl ⟨g.constant, rfl⟩
    · exact .inr forgotten

theorem addVariable_follows (wf : f.WellFormed) {change : Option (Change α)}
    (positive : ∀ c, change = some c → 0 < c.solverDimension) (m : Memory α) (h : Handle)
    (dimension : Int) : f.Follows ((addVariable h dimension change).run m f).2 := by
  rw [run_addVariable wf]
  cases found : f.find? h with
  | none =>
      cases made : newVariable m h dimension change f.scalars with
      | error fault => exact .refl wf
      | ok v =>
          have fits := newVariable_fits made positive
          obtain ⟨-, -, rfl⟩ := newVariable_ok made
          exact ⟨wf.append fits (wf.find?_eq_none found), .inr rfl⟩
  | some known =>
      obtain ⟨i, v⟩ := known
      obtain ⟨at_i, -⟩ := wf.find?_eq_some.1 found
      cases made : changed v dimension change with
      | error fault => simpa [made] using .refl wf
      | ok w =>
          have fits := changed_fits made (wf.vars v (List.mem_of_getElem? at_i))
          obtain ⟨-, same⟩ := changed_ok made
          simp only [made]
          exact ⟨wf.alter at_i (by rw [same]) (by rw [same]) fits, .inr rfl⟩

theorem setConstant_follows (wf : f.WellFormed) (m : Memory α) (h : Handle) (isConstant : Bool) :
    f.Follows ((setConstant h isConstant).run m f).2 := by
  rw [run_setConstant wf]
  cases found : f.find? h with
  | none => exact .refl wf
  | some known =>
      obtain ⟨i, v⟩ := known
      obtain ⟨at_i, -⟩ := wf.find?_eq_some.1 found
      have fits := wf.vars v (List.mem_of_getElem? at_i)
      exact ⟨wf.alter at_i rfl rfl (fits.update v.globalIndex isConstant), .inr rfl⟩

theorem setThreads_follows (wf : f.WellFormed) (m : Memory α) (count : Int) :
    f.Follows ((setThreads count).run m f).2 := by
  by_cases positive : count ≤ 0
  · simp only [setThreads, positive, ↓reduceIte, Edit.run_bind, Edit.run_throw]
    exact .refl wf
  · simp only [setThreads, positive, ↓reduceIte, Edit.run_modify]
    exact ⟨wf.setThreads (by omega), .inr rfl⟩

theorem addVariable_grows {h : Handle} {dimension : Int} {result : Except (Fault α) Unit}
    (wf : f.WellFormed) (plain : ∀ v ∈ f.vars, v.change = none)
    (run : (addVariable h dimension none).run m f = (result, g)) : f.Grows g := by
  rw [run_addVariable wf] at run
  cases found : f.find? h with
  | none =>
      cases made : newVariable m h dimension none f.scalars with
      | error fault =>
          simp only [found, made] at run
          cases run
          exact .refl wf
      | ok v =>
          simp only [found, made] at run
          cases run
          exact grows_append wf found made
  | some known =>
      obtain ⟨i, v⟩ := known
      obtain ⟨at_i, -⟩ := wf.find?_eq_some.1 found
      have member := List.mem_of_getElem? at_i
      cases made : changed v dimension none with
      | error fault =>
          simp only [found, made] at run
          cases run
          exact .refl wf
      | ok w =>
          have equal := changed_plain made (wf.vars v member) (plain v member)
          simp only [found, made, equal, wf.alter_self at_i] at run
          cases run
          exact ⟨wf, .refl _, .inr rfl⟩

theorem keeps_adopt (plain : ∀ v ∈ f.vars, v.change = none) (m : Memory α) (r : Registry α) :
    Keeps f.Grows (ReaderT.run (adopt r) m) := by
  rw [adopt, ReaderT.run_bind, Edit.run_forM, Edit.run_forM]
  refine .bind (keeps_forM fun v _ => ?_) fun _ => keeps_forM fun b _ => ?_
  · exact fun g grows => grows.trans (addVariable_grows grows.wellFormed (grows.grown.plain plain) rfl)
  · exact fun g grows => grows.trans (addTerm_grows grows.wellFormed rfl).1

theorem checkMerge_ok {r s : Registry α} (checked : checkMerge r s = .ok ()) :
    ∀ v ∈ r.vars, v.change = none := by
  unfold checkMerge at checked
  by_cases changed : (r.vars ++ s.vars).any (·.change.isSome) = true
  · rw [if_pos changed] at checked
    cases checked
  · intro v member
    by_contra some
    refine changed (List.any_eq_true.2 ⟨v, List.mem_append_left _ member, ?_⟩)
    rwa [Option.isSome_iff_ne_none]

variable [Scalar α]

theorem merge_follows {r : Registry α} {result : Except (Fault α) Unit} (wf : f.WellFormed)
    (run : (merge r).run m f = (result, g)) :
    f.Follows g ∧ ∀ fault, result = .error fault → g.toRegistry = f.toRegistry := by
  simp only [merge, Edit.run_bind, Edit.run_get, Edit.run_lift] at run
  cases checked : checkMerge f.toRegistry r with
  | error fault =>
      simp only [checked] at run
      cases run
      exact ⟨.refl wf, fun _ _ => rfl⟩
  | ok _ =>
      have grows : f.Grows ((adopt r).run m f).2 :=
        keeps_adopt (checkMerge_ok checked) m r f (.refl wf)
      simp only [checked, Edit.run_tryCatch] at run
      rcases adopted : (adopt r).run m f with ⟨fault | _, f'⟩ <;> rw [adopted] at grows
      · have restored := grows.grown.cut wf grows.wellFormed
        simp only [adopted, Edit.run_bind, Edit.run_modify, Edit.run_throw, invalidate, restored,
          grows.forgotten] at run
        cases run
        exact ⟨⟨wf, .inr rfl⟩, fun _ _ => rfl⟩
      · simp only [adopted, addNumber, Edit.run_modify] at run
        cases run
        refine ⟨⟨grows.wellFormed.setConstant _, ?_⟩, fun _ failed => by cases failed⟩
        rcases grows.derived with rfl | forgotten
        · exact .inl ⟨_, rfl⟩
        · exact .inr forgotten

end Objective

namespace Mutation

variable [Scalar α] {f g : Objective α} {m : Memory α}

def Positive : Mutation α → Prop
  | addVariable _ _ (some c) => 0 < c.solverDimension
  | _ => True

theorem follows (c : Mutation α) (positive : c.Positive) (wf : f.WellFormed) (m : Memory α) :
    f.Follows (c.edit.run m f).2 := by
  cases c with
  | addVariable h dimension change =>
      refine Objective.addVariable_follows wf (fun c same => ?_) m h dimension
      subst same
      exact positive
  | setConstant h isConstant => exact Objective.setConstant_follows wf m h isConstant
  | addTerm t handles =>
      cases t with
      | term t => exact (Objective.addTerm_grows wf rfl).1.follows
      | other typeName => exact .refl wf
  | add summand =>
      cases summand with
      | number value => exact .setConstant wf _
      | objective r => exact (Objective.merge_follows wf rfl).1
      | other typeName => exact .refl wf
  | setThreads count => exact Objective.setThreads_follows wf m count
  | enableHessian enabled => exact ⟨wf.enableHessian _, .inr rfl⟩

theorem unchanged (c : Mutation α) (wf : f.WellFormed) {fault : Fault α}
    (failed : c.edit.run m f = (.error fault, g)) : g.toRegistry = f.toRegistry := by
  cases c with
  | addVariable h dimension change =>
      rw [edit, Objective.run_addVariable wf] at failed
      split at failed
      all_goals
        split at failed
        · cases failed
        · cases failed
          rfl
  | setConstant h isConstant =>
      rw [edit, Objective.run_setConstant wf] at failed
      split at failed
      · cases failed
      · cases failed
        rfl
  | addTerm t handles =>
      cases t with
      | term t => exact (Objective.addTerm_grows wf failed).2 fault rfl
      | other typeName =>
          cases failed
          rfl
  | add summand =>
      cases summand with
      | number value => cases failed
      | objective r => exact (Objective.merge_follows wf failed).2 fault rfl
      | other typeName =>
          cases failed
          rfl
  | setThreads count =>
      by_cases positive : count ≤ 0
      all_goals
        simp only [edit, Objective.setThreads, positive, ↓reduceIte, Edit.run_bind, Edit.run_throw,
          Edit.run_modify] at failed
        cases failed
      rfl
  | enableHessian enabled => cases failed

end Mutation

end Descent
