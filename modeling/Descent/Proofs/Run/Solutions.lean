import Mathlib
import Descent.Proofs.Evaluation.Caches
import Descent.Proofs.Evaluation.Points
import Descent.Proofs.Run.Searches
import Descent.Objective.Minimize

namespace Descent

variable {α : Type} [Scalar α]

namespace Registry

variable (r : Registry α) (m : Memory α) (sparse : Bool)

theorem means_value : Eval.Means (r.oracle m sparse).value (·.Coherent r)
    fun x => r.valueMeaning m (some x.toList) :=
  fun x _ coherent => run_value coherent (some x.toList)

theorem means_gradient : Eval.Means (r.oracle m sparse).gradient (·.Coherent r)
    fun x => r.gradientMeaning m x.toList :=
  fun x _ coherent => run_gradient coherent x.toList

theorem means_hessian : Eval.Means (r.oracle m sparse).hessian (·.Coherent r)
    fun x => r.hessianMeaning m x.toList sparse :=
  fun x _ coherent => run_hessian coherent x.toList sparse

variable {r m}

theorem run_useSparse {w : Workspace α} (coherent : w.Coherent r) (c : Config α) :
    ∃ sparse w', (r.useSparse c).run w = (.ok sparse, w') ∧ w'.Coherent r := by
  unfold useSparse
  cases c.sparsityMode with
  | sparse => exact ⟨_, _, rfl, coherent⟩
  | dense => exact ⟨_, _, rfl, coherent⟩
  | auto =>
      by_cases small : (r.scalars : Int) < c.autoSparseMinSize
      · simp only [small, ↓reduceIte]
        exact ⟨_, _, rfl, coherent⟩
      · obtain ⟨w', run, coherent'⟩ := run_hessianDensity coherent
        simp only [small, ↓reduceIte, Evaluation.run_bind, run, Evaluation.run_pure]
        exact ⟨_, _, rfl, coherent'⟩

end Registry

namespace Minimization

variable {s : Surroundings α} {r : Registry α}

omit [Scalar α] in
theorem run_evaluating {β : Type} (e : Evaluation α β) :
    StateT.run (ExceptT.run (evaluating e)) s =
      ((e.run s.workspace).1, { s with workspace := (e.run s.workspace).2 }) := by
  rcases ran : e.run s.workspace with ⟨fault | a, w⟩ <;>
    simp only [evaluating, run_run_bind, run_run_get, run_run_set, ran] <;> rfl

omit [Scalar α] in
theorem run_iterating {n : Nat} {ι : Type}
    (x : Run (Workspace α) α n (Except (Fault α) (ExitCondition × ι))) :
    StateT.run (ExceptT.run (iterating x)) s =
      ((fun (exit, state) => (exit, state, (x.run (s.workspace, ⟨[], []⟩)).2.2)) <$>
        (x.run (s.workspace, ⟨[], []⟩)).1,
        { s with workspace := (x.run (s.workspace, ⟨[], []⟩)).2.1 }) := by
  rcases ran : x.run (s.workspace, ⟨[], []⟩) with ⟨fault | ⟨exit, state⟩, w, j⟩ <;>
    simp only [iterating, run_run_bind, run_run_get, run_run_set,
      show StateT.run x (s.workspace, ⟨[], []⟩) = _ from ran] <;> rfl

omit [Scalar α] in
theorem run_writeBack (x : Vector α r.scalars) :
    StateT.run (ExceptT.run (writeBack r x)) s =
      ((StateT.run (ExceptT.run (r.writePoint x.toList)) s.memory).1,
        { s with memory := (StateT.run (ExceptT.run (r.writePoint x.toList)) s.memory).2 }) := by
  rcases ran : StateT.run (ExceptT.run (r.writePoint x.toList)) s.memory with ⟨fault | _, m⟩ <;>
    simp only [writeBack, run_run_bind, run_run_get, run_run_set, ran] <;> rfl

theorem run_startPoint : StateT.run (ExceptT.run (startPoint r)) s =
    ((fun x => Vector.ofFn fun i => x.getD i.val 0) <$> r.readPoint s.memory, s) := by
  simp only [startPoint, run_run_bind, run_run_get, run_run_lift]
  cases r.readPoint s.memory <;> rfl

theorem read_of_started (wf : r.WellFormed) {s' : Surroundings α} {start : Vector α r.scalars}
    (started : StateT.run (ExceptT.run (startPoint r)) s = (.ok start, s')) :
    r.readPoint s.memory = .ok start.toList := by
  rw [run_startPoint] at started
  obtain ⟨x, read, rfl⟩ := map_eq_ok.1 (Prod.mk.inj started).1
  obtain ⟨size, -⟩ := Registry.run_readPoint wf read
  rw [read]
  congr 1
  refine List.ext_getElem (by simp [size]) fun i inside inside' => ?_
  simp [inside]

theorem started_of_read {x : List α} (read : r.readPoint s.memory = .ok x) :
    ∃ start, StateT.run (ExceptT.run (startPoint r)) s = (.ok start, s) := by
  rw [run_startPoint, read]
  exact ⟨_, rfl⟩

variable {ι : Type} (r) (setup : RunSetup α r.scalars)

/-- How a solver that makes the iterations `turn` comes to a solution: from `start` in the arrays of the
caller, and with the workspace `w`, it repeats them, and the point of the last state is written back. -/
structure Course (turn : Bool → ι → Run (Workspace α) α r.scalars (Turn α ι))
    (initial : Vector α r.scalars → ι) (iterate : ι → Iterate α r.scalars) (left : Nat)
    (before after : Surroundings α) (solution : Solution α r.scalars) (w : Workspace α)
    (start : Vector α r.scalars) (state : ι) : Prop where
  started : StateT.run (ExceptT.run (startPoint r)) before = (.ok start, before)
  coherent : w.Coherent r
  ran : ∃ journal, (Run.repeatTurn turn left (initial start)).run (w, ⟨[], []⟩) =
    (.ok (solution.exit, state), after.workspace, journal) ∧ journal.sights = solution.journal.sights
  wrote : StateT.run (ExceptT.run (r.writePoint (iterate state).point.toList)) before.memory =
    (.ok (), after.memory)
  counted : solution.iterations = (iterate state).iterations

variable {r setup} {iterations : Int} {before after : Surroundings α}
  {solution : Solution α r.scalars}

omit [Scalar α] in
theorem iterating_ok {n : Nat} {x : Run (Workspace α) α n (Except (Fault α) (ExitCondition × ι))}
    {exit : ExitCondition} {state : ι} {journal : Journal α n}
    (ran : StateT.run (ExceptT.run (iterating x)) before = (.ok (exit, state, journal), after)) :
    x.run (before.workspace, ⟨[], []⟩) = (.ok (exit, state), after.workspace, journal) ∧
      after.memory = before.memory := by
  rw [run_iterating] at ran
  rcases outcome : x.run (before.workspace, ⟨[], []⟩) with ⟨fault | ⟨exit', state'⟩, w, j⟩ <;>
    rw [outcome] at ran <;> cases ran
  exact ⟨rfl, rfl⟩

theorem newton_course {rule : Newton.StepRule α r.scalars} (coherent : before.workspace.Coherent r)
    (ran : StateT.run (ExceptT.run (newton r setup rule iterations)) before = (.ok solution, after)) :
    ∃ sparse w start state, (r.useSparse setup.config).run before.workspace = (.ok sparse, w) ∧
      Course r (Newton.turn setup (r.oracle before.memory sparse) rule)
        (fun x => ⟨.start x iterations, []⟩) Newton.State.iterate
        (Run.remaining setup.config iterations) before after solution w start state := by
  obtain ⟨start, s₁, started, ran₁⟩ := run_run_bind_ok.1 ran
  obtain rfl : s₁ = before := by
    rw [run_startPoint] at started
    exact (Prod.mk.inj started).2.symm
  obtain ⟨sparse, s₂, chosen, ran₂⟩ := run_run_bind_ok.1 ran₁
  obtain ⟨sparse', w, decided, coherent'⟩ := Registry.run_useSparse coherent setup.config
  rw [run_evaluating, decided] at chosen
  obtain ⟨answer, rfl⟩ := Prod.mk.inj chosen
  obtain rfl := Except.ok.inj answer
  obtain ⟨s₃, s₄, got, ran₃⟩ := run_run_bind_ok.1 ran₂
  cases got
  obtain ⟨⟨exit, state, journal⟩, s₅, iterated, ran₄⟩ := run_run_bind_ok.1 ran₃
  obtain ⟨repeated, kept⟩ := iterating_ok iterated
  obtain ⟨_, s₆, written, ran₅⟩ := run_run_bind_ok.1 ran₄
  rw [run_writeBack, kept] at written
  obtain ⟨success, rfl⟩ := Prod.mk.inj written
  cases ran₅
  exact ⟨sparse', w, start, state, decided, {
    started
    coherent := coherent'
    ran := ⟨journal, repeated, rfl⟩
    wrote := Prod.ext success rfl
    counted := rfl }⟩

theorem lbfgs_course (coherent : before.workspace.Coherent r)
    (ran : StateT.run (ExceptT.run (lbfgs r setup iterations)) before = (.ok solution, after)) :
    ∃ start state, Course r (Lbfgs.turn setup (r.oracle before.memory false))
      (fun x => ⟨.start x iterations, .empty setup.config.historySize, none⟩) Lbfgs.State.iterate
      (Run.remaining setup.config iterations) before after solution before.workspace start state := by
  obtain ⟨start, s₁, started, ran₁⟩ := run_run_bind_ok.1 ran
  obtain rfl : s₁ = before := by
    rw [run_startPoint] at started
    exact (Prod.mk.inj started).2.symm
  obtain ⟨s₂, s₃, got, ran₂⟩ := run_run_bind_ok.1 ran₁
  cases got
  obtain ⟨⟨exit, state, journal⟩, s₄, iterated, ran₃⟩ := run_run_bind_ok.1 ran₂
  obtain ⟨repeated, kept⟩ := iterating_ok iterated
  obtain ⟨_, s₅, written, ran₄⟩ := run_run_bind_ok.1 ran₃
  rw [run_writeBack, kept] at written
  obtain ⟨success, rfl⟩ := Prod.mk.inj written
  cases ran₄
  exact ⟨start, state, {
    started
    coherent
    ran := ⟨journal, repeated, rfl⟩
    wrote := Prod.ext success rfl
    counted := rfl }⟩

/-! ## Runs on any oracle -/

variable {oracle : Memory α → Bool → Oracle (Workspace α) α r.scalars} {start : Vector α r.scalars}
  {w w' : Workspace α} {exit : ExitCondition} {journal : Journal α r.scalars} {memory : Memory α}
  (started : StateT.run (ExceptT.run (startPoint r)) before = (.ok start, before))

include started

theorem run_newtonOn {rule : Newton.StepRule α r.scalars} {sparse : Bool}
    {state : Newton.State α r.scalars}
    (chosen : (r.useSparse setup.config).run before.workspace = (.ok sparse, w))
    (ran : (Newton.run setup (oracle before.memory sparse) rule start iterations).run (w, ⟨[], []⟩) =
      (.ok (exit, state), w', journal))
    (wrote : StateT.run (ExceptT.run (r.writePoint state.iterate.point.toList)) before.memory =
      (.ok (), memory)) :
    ∃ solution, StateT.run (ExceptT.run (newtonOn r oracle setup rule iterations)) before =
        (.ok solution, ⟨w', memory⟩) ∧
      solution.exit = exit ∧ solution.iterations = state.iterate.iterations ∧
        solution.journal.sights = journal.sights := by
  simp only [newtonOn, run_run_bind, started, run_evaluating, chosen, run_run_get, run_iterating, ran,
    map_ok, run_writeBack, wrote]
  exact ⟨_, rfl, rfl, rfl, rfl⟩

theorem run_lbfgsOn {state : Lbfgs.State α r.scalars}
    (ran : (Lbfgs.run setup (oracle before.memory false) start iterations).run
      (before.workspace, ⟨[], []⟩) = (.ok (exit, state), w', journal))
    (wrote : StateT.run (ExceptT.run (r.writePoint state.iterate.point.toList)) before.memory =
      (.ok (), memory)) :
    ∃ solution, StateT.run (ExceptT.run (lbfgsOn r oracle setup iterations)) before =
        (.ok solution, ⟨w', memory⟩) ∧
      solution.exit = exit ∧ solution.iterations = state.iterate.iterations ∧
        solution.journal.sights = journal.sights := by
  simp only [lbfgsOn, run_run_bind, started, run_run_get, run_iterating, ran, map_ok, run_writeBack, wrote]
  exact ⟨_, rfl, rfl, rfl, rfl⟩

end Minimization

namespace Objective

inductive Algorithm (α : Type) (n : Nat) where
  | newton (rule : Newton.StepRule α n)
  | lbfgs

section

variable (f : Objective α) (m : Memory α) (setup : RunSetup α f.scalars) (iterations : Int)

def minimization : Algorithm α f.scalars → Minimization α (Solution α f.scalars)
  | .newton rule => .newton f.toRegistry setup rule iterations
  | .lbfgs => .lbfgs f.toRegistry setup iterations

def StartsAt (x : Vector α f.scalars) : Prop :=
  StateT.run (ExceptT.run (Minimization.startPoint f.toRegistry)) ⟨f.workspace, m⟩ =
    (.ok x, ⟨f.workspace, m⟩)

end

end Objective

end Descent
