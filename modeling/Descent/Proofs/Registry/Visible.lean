import Mathlib
import Descent.Proofs.Agreement
import Descent.Proofs.Registry.Reachable

namespace Descent

variable {α : Type}

namespace Objective

def SameRegistry (f g : Objective α) : Prop := f.toRegistry = g.toRegistry

end Objective

def Edit.Blind {β : Type} (e : Edit α β) : Prop :=
  ∀ m, Agree Objective.SameRegistry (ReaderT.run e m) (ReaderT.run e m)

namespace Edit

variable {β γ : Type}

theorem blind_pure (b : β) : Blind (pure b : Edit α β) := fun _ => agree_pure b

theorem blind_throw (fault : Fault α) : Blind (throw fault : Edit α β) := fun _ => agree_throw fault

theorem blind_lift (result : Except (Fault α) β) : Blind (liftM result : Edit α β) :=
  fun _ => agree_lift result

theorem blind_modify {change : Objective α → Objective α}
    (kept : ∀ f g : Objective α, f.SameRegistry g → (change f).SameRegistry (change g)) :
    Blind (modify change : Edit α PUnit) := fun _ => agree_modify kept

theorem Blind.bind {e : Edit α β} {next : β → Edit α γ} (first : e.Blind) (others : ∀ b, (next b).Blind) :
    (e >>= next).Blind := fun m => (first m).bind fun b => others b m

theorem blind_read_bind {next : Memory α → Edit α γ} (others : ∀ m, (next m).Blind) :
    (read >>= next).Blind := fun m => others m m

theorem blind_get_bind {next : Objective α → Edit α γ}
    (visible : ∀ f g : Objective α, f.toRegistry = g.toRegistry → next f = next g)
    (others : ∀ f, (next f).Blind) : (get >>= next).Blind :=
  fun m => agree_get_bind fun f g same => visible f g same ▸ others f m

theorem Blind.tryCatch {e : Edit α β} {handler : Fault α → Edit α β} (first : e.Blind)
    (handled : ∀ fault, (handler fault).Blind) : (MonadExcept.tryCatch e handler : Edit α β).Blind :=
  fun m => (first m).tryCatch fun fault => handled fault m

theorem blind_forM {l : List γ} {e : γ → Edit α PUnit} (each : ∀ c ∈ l, (e c).Blind) : (l.forM e).Blind := by
  intro m
  rw [run_forM]
  exact agree_forM fun c member => each c member m

theorem blind_mapM {l : List γ} {e : γ → Edit α β} (each : ∀ c ∈ l, (e c).Blind) : (l.mapM e).Blind := by
  induction l with
  | nil => exact blind_pure _
  | cons c rest ih =>
      obtain ⟨here, each⟩ := List.forall_mem_cons.1 each
      rw [List.mapM_cons]
      exact here.bind fun _ => (ih each).bind fun _ => blind_pure _

end Edit

namespace Objective

open Edit

theorem blind_setVariable (i : Nat) (v : Variable α) : (setVariable i v).Blind :=
  blind_modify fun f g same => by
    rw [SameRegistry] at same ⊢
    simp only [same]

theorem blind_relayoutAll : (relayoutAll : Edit α Unit).Blind :=
  blind_modify fun f g same => by
    rw [SameRegistry] at same ⊢
    simp only [same]

theorem blind_invalidate : (modify invalidate : Edit α PUnit).Blind := blind_modify fun _ _ same => same

theorem blind_enter (v : Variable α) : (enter v).Blind := by
  intro m
  refine agree_get_bind fun f g same => ?_
  have constants : f.constants = g.constants := congrArg Registry.constants same
  refine (agree_set (t := { g with
    vars := g.vars ++ [v], directory := g.directory.insert v.storage g.vars.length }) ?_).bind fun _ => ?_
  · rw [SameRegistry] at same ⊢
    simp only [same]
  · simp only [constants]
    split
    · exact (blind_relayoutAll.bind fun _ => blind_invalidate) m
    · refine (blind_modify fun f g same => ?_).bind (fun _ => blind_invalidate) m
      rw [SameRegistry] at same ⊢
      simp only [same]

theorem blind_register (h : Handle) (dimension : Int) (change : Option (Change α)) :
    (register h dimension change).Blind :=
  blind_read_bind fun m => blind_get_bind (fun f g same => by simp only [same]) fun f =>
    (blind_lift _).bind fun v => blind_enter v

theorem blind_replaceChange (i : Nat) (v : Variable α) (dimension : Int) (change : Option (Change α)) :
    (replaceChange i v dimension change).Blind := by
  refine (blind_lift _).bind fun w => (blind_setVariable i w).bind fun _ => ?_
  split
  · exact blind_relayoutAll.bind fun _ => blind_invalidate
  · exact blind_invalidate

theorem blind_addVariable (h : Handle) (dimension : Int) (change : Option (Change α)) :
    (addVariable h dimension change).Blind := by
  refine blind_get_bind (fun f g same => by simp only [same]) fun f => ?_
  cases f.find? h with
  | none => exact blind_register h dimension change
  | some known => exact blind_replaceChange known.1 known.2 dimension change

theorem blind_setConstant (h : Handle) (isConstant : Bool) :
    (setConstant h isConstant : Edit α Unit).Blind := by
  refine blind_get_bind (fun f g same => by simp only [same]) fun f => ?_
  cases f.find? h with
  | none => exact blind_throw _
  | some known => exact (blind_setVariable _ _).bind fun _ => blind_relayoutAll.bind fun _ => blind_invalidate

theorem blind_bindArgument (t : Term α) (h : Handle) (k : Nat) : (bindArgument t h k).Blind := by
  refine (blind_lift _).bind fun dimension => blind_get_bind (fun f g same => by simp only [same]) fun f => ?_
  cases f.find? h with
  | none =>
      refine blind_get_bind (fun f g same => by simp only [same]) fun f => ?_
      exact (blind_addVariable h dimension none).bind fun _ => blind_pure _
  | some known =>
      simp only
      split
      · exact blind_throw _
      · exact blind_pure _

theorem blind_addTerm (t : Term α) (handles : List Handle) : (addTerm t handles).Blind := by
  rw [addTerm]
  split
  · exact blind_throw _
  · refine blind_get_bind (fun f g same => by simp only [same]) fun f => ?_
    refine ((blind_mapM fun p _ => blind_bindArgument t p.1 p.2).tryCatch fun fault =>
      (blind_modify fun f g same => ?_).bind fun _ => blind_throw fault).bind fun positions =>
        blind_modify fun f g same => ?_
    all_goals
      rw [SameRegistry] at same ⊢
      simp only [invalidate, same]

variable [Scalar α]

theorem blind_addNumber (value : α) : (addNumber value).Blind :=
  blind_modify fun f g same => by
    rw [SameRegistry] at same ⊢
    simp only [same]

omit [Scalar α] in
theorem blind_adopt (r : Registry α) : (adopt r).Blind :=
  (blind_forM fun _ _ => blind_addVariable _ _ _).bind fun _ => blind_forM fun _ _ => blind_addTerm _ _

theorem blind_merge (r : Registry α) : (merge r).Blind := by
  refine blind_get_bind (fun f g same => by simp only [same]) fun f => (blind_lift _).bind fun _ => ?_
  refine ((blind_adopt r).tryCatch fun fault => (blind_modify fun f g same => ?_).bind fun _ =>
    blind_throw fault).bind fun _ => blind_addNumber _
  rw [SameRegistry] at same ⊢
  simp only [invalidate, same]

end Objective

theorem Mutation.blind [Scalar α] (c : Mutation α) : c.edit.Blind := by
  cases c with
  | addVariable h dimension change => exact Objective.blind_addVariable h dimension change
  | setConstant h isConstant => exact Objective.blind_setConstant h isConstant
  | addTerm t handles =>
      cases t with
      | term t => exact Objective.blind_addTerm t handles
      | other typeName => exact Edit.blind_throw _
  | add summand =>
      cases summand with
      | number value => exact Objective.blind_addNumber value
      | objective r => exact Objective.blind_merge r
      | other typeName => exact Edit.blind_throw _
  | setThreads count =>
      rw [edit, Objective.setThreads]
      split
      · exact Edit.blind_throw _
      · refine Edit.blind_modify fun f g same => ?_
        rw [Objective.SameRegistry] at same ⊢
        simp only [Objective.invalidate, same]
  | enableHessian enabled =>
      refine Edit.blind_modify fun f g same => ?_
      rw [Objective.SameRegistry] at same ⊢
      simp only [Objective.invalidate, same]

namespace Reading

structure Like (s t : Reader α) : Prop where
  text : s.text = t.text
  memory : s.memory = t.memory
  registry : s.objective.SameRegistry t.objective

variable {β : Type}

theorem agree_refuse (wrong : Prop) [Decidable wrong] (fault : Fault α) :
    Agree Like (refuse wrong fault) (refuse wrong fault) := by
  rw [refuse]
  split
  · exact agree_throw _
  · exact agree_pure _

theorem agree_line (part : StreamPart) : Agree Like (line part : Reading α String) (line part) := by
  refine agree_get_bind fun s t like => ?_
  rw [like.text]
  split
  · exact agree_throw _
  · exact (agree_set ⟨rfl, like.memory, like.registry⟩).bind fun _ => agree_pure _

theorem agree_integers (part : StreamPart) :
    Agree Like (integers part : Reading α (List Int)) (integers part) := by
  refine (agree_line part).bind fun text => ?_
  split
  · exact agree_pure _
  · exact agree_throw _

theorem agree_natural (part : StreamPart) : Agree Like (natural part : Reading α Nat) (natural part) := by
  refine (agree_integers part).bind fun values => ?_
  split
  · exact agree_pure _
  · exact agree_throw _

theorem agree_constant [Numeral α] : Agree Like (constant : Reading α α) constant := by
  refine (agree_line _).bind fun text => ?_
  split
  · exact agree_pure _
  · exact agree_throw _

theorem agree_point [Numeral α] : Agree Like (point : Reading α (List α)) point := by
  refine (agree_line _).bind fun text => ?_
  split
  · exact agree_pure _
  · exact agree_throw _

theorem agree_edit {e : Edit α β} (blind : e.Blind) : Agree Like (edit e) (edit e) := by
  intro s t like
  obtain ⟨result, f, g, outcome, outcome', related⟩ := (blind t.memory).exists_run like.registry
  simp only [edit, run_run_bind, run_run_get, run_run_set, like.memory]
  rw [Edit.run, Edit.run, outcome, outcome']
  cases result <;> exact ⟨rfl, like.text, rfl, related⟩

theorem agree_view (whole : Handle) (start stop : Int) :
    Agree Like (view whole start stop : Reading α Handle) (view whole start stop) := by
  refine agree_get_bind fun s t like => ?_
  rw [like.memory]
  exact (agree_set ⟨like.text, rfl, like.registry⟩).bind fun _ => agree_pure _

theorem agree_registerParts (whole : Handle) (offset : Int) (dimensions : List Int) :
    Agree Like (registerParts whole offset dimensions : Reading α (List Handle))
      (registerParts whole offset dimensions) := by
  induction dimensions generalizing offset with
  | nil => exact agree_pure _
  | cons d rest ih =>
      exact (agree_view _ _ _).bind fun handle =>
        (agree_edit (Objective.blind_addVariable handle d none)).bind fun _ =>
          (ih _).bind fun _ => agree_pure _

theorem agree_term (factory : Factory α) (handles : List Handle) :
    Agree Like (term factory handles) (term factory handles) :=
  (agree_line _).bind fun _ => (agree_natural _).bind fun _ =>
    (agree_integers _).bind fun _ => (agree_refuse _ _).bind fun _ =>
      (agree_line _).bind fun _ => (agree_lift _).bind fun t =>
        agree_edit (Objective.blind_addTerm t _)

theorem agree_terms (factory : Factory α) (handles : List Handle) (count : Nat) :
    Agree Like (terms factory handles count) (terms factory handles count) := by
  induction count with
  | zero => exact agree_pure _
  | succ count ih => exact (agree_term factory handles).bind fun _ => ih

variable [Numeral α] [Scalar α]

omit [Scalar α] in
theorem agree_body (factory : Factory α) : Agree Like (body factory) (body factory) := by
  refine (agree_line _).bind fun magic => (agree_refuse _ _).bind fun _ =>
    (agree_natural _).bind fun version => (agree_refuse _ _).bind fun _ =>
    (agree_line _).bind fun format => (agree_refuse _ _).bind fun _ =>
    (agree_natural _).bind fun numberOfTerms => (agree_natural _).bind fun numberOfVariables =>
    (agree_natural _).bind fun numberOfScalars => agree_constant.bind fun constant =>
    (agree_integers _).bind fun dimensions => (agree_integers _).bind fun flags =>
    (agree_refuse _ _).bind fun _ => (agree_refuse _ _).bind fun _ =>
    agree_point.bind fun values => (agree_refuse _ _).bind fun _ => ?_
  refine agree_get_bind fun s t like => ?_
  rw [like.memory]
  refine Agree.bind (agree_modify fun s t like => ?_) fun _ =>
    (agree_registerParts _ _ _).bind fun handles =>
      (agree_forM fun part _ => agree_edit (Objective.blind_setConstant part.1 true)).bind fun _ =>
        (agree_terms factory handles numberOfTerms).bind fun _ =>
          Agree.bind (agree_modify fun s t like => ?_) fun _ => agree_pure _
  · exact ⟨like.text, rfl, like.registry⟩
  · refine ⟨like.text, like.memory, ?_⟩
    have same := like.registry
    rw [Objective.SameRegistry] at same ⊢
    simp only [same]

omit [Numeral α] in
theorem agree_clear : Agree Like (clear : Reading α Unit) clear := by
  refine agree_modify fun s t like => ⟨like.text, like.memory, ?_⟩
  have same := like.registry
  rw [Objective.SameRegistry] at same ⊢
  simp only [Objective.clear, same]

theorem agree_objective (factory : Factory α) : Agree Like (objective factory) (objective factory) :=
  agree_clear.bind fun _ => (agree_body factory).tryCatch fun fault =>
    agree_clear.bind fun _ => agree_throw fault

end Reading

end Descent
