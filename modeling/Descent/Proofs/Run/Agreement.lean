import Mathlib
import Descent.Proofs.Agreement
import Descent.Proofs.Run.Solutions

namespace Descent

variable {σ α β γ : Type} {n : Nat} {R : σ → σ → Prop}

structure Oracle.Agrees (R : σ → σ → Prop) (oracle : Oracle σ α n) : Prop where
  value : ∀ x, Agree R (oracle.value x) (oracle.value x)
  gradient : ∀ x, Agree R (oracle.gradient x) (oracle.gradient x)
  hessian : ∀ x, Agree R (oracle.hessian x) (oracle.hessian x)

namespace LineSearch

variable [Scalar α] {evaluate : Vector α n → Eval σ α α} (each : ∀ x, Agree R (evaluate x) (evaluate x))

include each

theorem agree_backtrack (c : Config α) (x p : Vector α n) (value slope : α) (budget evaluations : Nat)
    (step : α) : Agree R (backtrack c evaluate x p value slope budget evaluations step)
      (backtrack c evaluate x p value slope budget evaluations step) := by
  induction budget generalizing evaluations step with
  | zero => exact agree_pure _
  | succ budget ih =>
      rw [backtrack]
      split
      · simp only
        split
        · exact agree_pure _
        · refine (each _).bind fun reached => ?_
          split
          · exact agree_pure _
          · exact ih _ _
      · exact agree_pure _

theorem agree_search (c : Config α) (budget : Nat) (x : Vector α n) (value : α) (g p : Vector α n) (start : α) :
    Agree R (search c budget evaluate x value g p start) (search c budget evaluate x value g p start) := by
  rw [search]
  split
  · exact agree_backtrack each c x p value _ budget 0 start
  · exact agree_pure _

end LineSearch

namespace Run

def Agrees (R : σ → σ → Prop) (x : Run σ α n β) : Prop :=
  ∀ o o' journal, R o o' →
    (run x (o, journal)).1 = (run x (o', journal)).1 ∧
      (run x (o, journal)).2.2 = (run x (o', journal)).2.2 ∧
      R (run x (o, journal)).2.1 (run x (o', journal)).2.1

theorem agrees_pure (b : β) : Agrees R (pure b : Run σ α n β) := fun _ _ _ related => ⟨rfl, rfl, related⟩

theorem Agrees.bind {x : Run σ α n β} {next : β → Run σ α n γ} (first : Agrees R x)
    (others : ∀ b, Agrees R (next b)) : Agrees R (x >>= next) := by
  intro o o' journal related
  obtain ⟨same, written, related⟩ := first o o' journal related
  rw [run_bind, run_bind]
  rcases outcome : run x (o, journal) with ⟨b, o₁, journal₁⟩
  rcases outcome' : run x (o', journal) with ⟨b', o₁', journal₁'⟩
  rw [outcome, outcome'] at same written related
  obtain rfl : b = b' := same
  obtain rfl : journal₁ = journal₁' := written
  exact others b o₁ o₁' journal₁ related

theorem agrees_log (entries : List (Entry α)) : Agrees R (log entries : Run σ α n Unit) :=
  fun _ _ _ related => ⟨rfl, rfl, related⟩

theorem agrees_shown (setup : RunSetup α n) (sight : Sight α n) :
    Agrees R (shown setup sight : Run σ α n Bool) := fun _ _ _ related => ⟨rfl, rfl, related⟩

theorem agrees_attempt {e : Eval σ α β} (same : Agree R e e) : Agrees R (attempt e : Run σ α n _) := by
  intro o o' journal related
  obtain ⟨same, related⟩ := same o o' related
  exact ⟨same, rfl, related⟩

theorem agrees_failed {ι : Type} (solver : Solver) (stage : Stage) (fault : Fault α) (state : ι) :
    Agrees R (failed solver stage fault state : Run σ α n _) :=
  (agrees_log _).bind fun _ => agrees_pure _

theorem agrees_repeatTurn {ι : Type} {turn : Bool → ι → Run σ α n (Turn α ι)}
    (each : ∀ exhausted s, Agrees R (turn exhausted s)) (left : Nat) (s : ι) :
    Agrees R (repeatTurn turn left s) := by
  induction left generalizing s with
  | zero =>
      refine (each true s).bind fun outcome => ?_
      cases outcome <;> exact agrees_pure _
  | succ left ih =>
      refine (each false s).bind fun outcome => ?_
      cases outcome with
      | stop exit state => exact agrees_pure _
      | next state => exact ih state
      | abandon fault => exact agrees_pure _

end Run

section

variable [Scalar α] {oracle : Oracle σ α n} (agrees : oracle.Agrees R)

include agrees

theorem agrees_searching {ι β : Type} {setup : RunSetup α n} {m : Scheme σ α n ι β} (solver : Solver) (s : ι)
    (b : β) (p : Vector α n) (start : α) (s' : ι) (entries : List (Entry α)) :
    Run.Agrees R (searching setup oracle m solver s b p start s' entries) := by
  refine (Run.agrees_log _).bind fun _ => (Run.agrees_attempt
    (LineSearch.agree_search agrees.value _ _ _ _ _ _ _)).bind fun searched => ?_
  cases searched with
  | error fault => exact Run.agrees_failed _ _ _ _
  | ok found =>
      refine (Run.agrees_log _).bind fun _ => ?_
      split <;> exact Run.agrees_pure _

theorem Newton.agrees_turn (setup : RunSetup α n) (rule : StepRule α n) (exhausted : Bool) (s : State α n) :
    Run.Agrees R (turn setup oracle rule exhausted s) := by
  refine (Run.agrees_attempt (agrees.hessian _)).bind fun evaluated => ?_
  cases evaluated with
  | error fault => exact Run.agrees_failed _ _ _ _
  | ok result =>
      refine (Run.agrees_log _).bind fun _ => ?_
      split
      · exact Run.agrees_pure _
      · refine (Run.agrees_shown _ _).bind fun proceeds => ?_
        split
        · split
          · exact Run.agrees_failed _ _ _ _
          · next step _ =>
              exact agrees_searching (m := Newton.scheme setup oracle rule) agrees .newton s result
                step.direction setup.config.startStep { s with shifts := s.shifts ++ [step.shift] } step.entries
        · exact Run.agrees_pure _

theorem Lbfgs.agrees_turn (setup : RunSetup α n) (exhausted : Bool) (s : State α n) :
    Run.Agrees R (turn setup oracle exhausted s) := by
  refine (Run.agrees_attempt (agrees.gradient _)).bind fun evaluated => ?_
  cases evaluated with
  | error fault => exact Run.agrees_failed _ _ _ _
  | ok result =>
      refine (Run.agrees_log _).bind fun _ => ?_
      split
      · exact Run.agrees_pure _
      · refine (Run.agrees_shown _ _).bind fun proceeds => ?_
        split
        · split
          · exact Run.agrees_pure _
          · next search _ =>
              exact agrees_searching (m := Lbfgs.scheme setup oracle) agrees .lbfgs s result search.direction
                search.start { s with history := search.history } search.entries
        · exact Run.agrees_pure _

end

/-! ## Minimizations -/

theorem Eval.Means.agree {evaluate : Vector α n → Eval σ α β} {Good : σ → Prop}
    {meaning : Vector α n → Except (Fault α) β} (means : Eval.Means evaluate Good meaning) (x : Vector α n) :
    Agree (fun o o' => Good o ∧ Good o') (evaluate x) (evaluate x) := by
  rintro o o' ⟨good, good'⟩
  obtain ⟨o₁, ran, good₁⟩ := means x o good
  obtain ⟨o₁', ran', good₁'⟩ := means x o' good'
  rw [Eval.run] at ran ran'
  rw [ran, ran']
  exact ⟨rfl, good₁, good₁'⟩

def Registry.BothCoherent (r : Registry α) (w w' : Workspace α) : Prop := w.Coherent r ∧ w'.Coherent r

structure Surroundings.Like (r : Registry α) (s t : Surroundings α) : Prop where
  memory : s.memory = t.memory
  coherent : r.BothCoherent s.workspace t.workspace

variable [Scalar α] {r : Registry α}

theorem Registry.agrees_oracle (r : Registry α) (m : Memory α) (sparse : Bool) :
    (r.oracle m sparse).Agrees r.BothCoherent where
  value := (r.means_value m sparse).agree
  gradient := (r.means_gradient m sparse).agree
  hessian := (r.means_hessian m sparse).agree

namespace Minimization

variable {setup : RunSetup α r.scalars} {iterations : Int}

theorem agree_useSparse (c : Config α) : Agree r.BothCoherent (r.useSparse c) (r.useSparse c) := by
  unfold Registry.useSparse
  cases c.sparsityMode with
  | sparse | dense => exact agree_pure _
  | auto =>
      simp only
      split
      · exact agree_pure _
      · refine Agree.bind ?_ fun _ => agree_pure _
        rintro w w' ⟨coherent, coherent'⟩
        obtain ⟨w₁, ran, coherent₁⟩ := Registry.run_hessianDensity coherent
        obtain ⟨w₁', ran', coherent₁'⟩ := Registry.run_hessianDensity coherent'
        rw [Evaluation.run] at ran ran'
        rw [ran, ran']
        exact ⟨rfl, coherent₁, coherent₁'⟩

theorem agree_startPoint : Agree (Surroundings.Like r) (startPoint r) (startPoint r) := by
  intro s t like
  rw [run_startPoint, run_startPoint, like.memory]
  exact ⟨rfl, like⟩

omit [Scalar α] in
theorem agree_evaluating {e : Evaluation α β} (same : Agree r.BothCoherent e e) :
    Agree (Surroundings.Like r) (evaluating e) (evaluating e) := by
  intro s t like
  rw [run_evaluating, run_evaluating]
  obtain ⟨same, coherent⟩ := same _ _ like.coherent
  exact ⟨same, like.memory, coherent⟩

omit [Scalar α] in
theorem agree_iterating {ι : Type} {run : Run (Workspace α) α n (Except (Fault α) (ExitCondition × ι))}
    (agrees : run.Agrees r.BothCoherent) : Agree (Surroundings.Like r) (iterating run) (iterating run) := by
  intro s t like
  rw [run_iterating, run_iterating]
  obtain ⟨same, written, coherent⟩ := agrees _ _ ⟨[], []⟩ like.coherent
  rw [same, written]
  exact ⟨rfl, like.memory, coherent⟩

omit [Scalar α] in
theorem agree_writeBack (x : Vector α r.scalars) :
    Agree (Surroundings.Like r) (writeBack r x) (writeBack r x) := by
  intro s t like
  rw [run_writeBack, run_writeBack, like.memory]
  exact ⟨rfl, rfl, like.coherent⟩

theorem agree_newton (rule : Newton.StepRule α r.scalars) :
    Agree (Surroundings.Like r) (newton r setup rule iterations) (newton r setup rule iterations) := by
  refine agree_startPoint.bind fun start => (agree_evaluating (agree_useSparse _)).bind fun sparse =>
    agree_get_bind fun s t like => ?_
  rw [like.memory]
  refine (agree_iterating (Run.agrees_repeatTurn
    (Newton.agrees_turn (r.agrees_oracle _ _) setup rule) _ _)).bind fun outcome => ?_
  exact (agree_writeBack _).bind fun _ => agree_pure _

theorem agree_lbfgs : Agree (Surroundings.Like r) (lbfgs r setup iterations) (lbfgs r setup iterations) := by
  refine agree_startPoint.bind fun start => agree_get_bind fun s t like => ?_
  rw [like.memory]
  refine (agree_iterating (Run.agrees_repeatTurn
    (Lbfgs.agrees_turn (r.agrees_oracle _ _) setup) _ _)).bind fun outcome => ?_
  exact (agree_writeBack _).bind fun _ => agree_pure _

theorem agree_solve (setup : RunSetup α r.scalars) (iterations : Int) (method : Method) :
    Agree (Surroundings.Like r) (solve r setup method iterations) (solve r setup method iterations) := by
  cases method with
  | newton => exact agree_newton _
  | lbfgs => exact agree_lbfgs
  | _ => exact agree_throw _

end Minimization

end Descent
