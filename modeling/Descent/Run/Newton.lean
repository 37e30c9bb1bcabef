import Descent.Regularizer
import Descent.Run.Basic

namespace Descent.Newton

variable {σ α : Type} [Scalar α] {n : Nat}

abbrev StepRule (α : Type) (n : Nat) :=
  Hessian α n → Vector α n → Except (Fault α) (NewtonStep α n)

structure State (α : Type) (n : Nat) where
  iterate : Iterate α n
  shifts : List α

def State.shift (s : State α n) : α := s.shifts.getLast?.getD 0

def follow (setup : RunSetup α n) (oracle : Oracle σ α n) (s : State α n) (value : α)
    (g : Vector α n) (step : NewtonStep α n) : Run σ α n (Turn α (State α n)) := do
  Run.log step.entries
  let s := { s with shifts := s.shifts ++ [step.shift] }
  let p := step.direction
  match ← Run.attempt (LineSearch.search setup.config setup.searchBudget oracle.value
      s.iterate.point value g p setup.config.startStep) with
  | .error fault => Run.failed .newton .lineSearch fault s
  | .ok result =>
      Run.log result.entries
      if result.isFinished then
        return .next { s with iterate := s.iterate.advance value g p result.step }
      else return .stop .na s

def turn (setup : RunSetup α n) (oracle : Oracle σ α n) (rule : StepRule α n) (exhausted : Bool)
    (s : State α n) : Run σ α n (Turn α (State α n)) := do
  match ← Run.attempt (oracle.hessian s.iterate.point) with
  | .error fault => Run.failed .newton .evaluation fault s
  | .ok (value, g, h) =>
      let exit := setup.config.exit? (s.iterate.standing value g exhausted)
      Run.row (.columns .newton)
        (.newtonRow s.iterate.iterations value (Vec.maxAbs g) s.iterate.step s.shift) s.iterate.rows
      match exit with
      | some exit => return .stop exit s
      | none =>
          if ← Run.shown setup ⟨value, s.iterate.point, g, some h⟩ then
            match rule h g with
            | .error fault => Run.failed .newton .factorization fault s
            | .ok step => follow setup oracle s value g step
          else return .stop .userAbort s

def run (setup : RunSetup α n) (oracle : Oracle σ α n) (rule : StepRule α n) (point : Vector α n)
    (iterations : Int) : Run σ α n (Except (Fault α) (ExitCondition × State α n)) :=
  Run.repeatTurn (turn setup oracle rule) (Run.remaining setup.config iterations)
    ⟨.start point iterations, []⟩

end Descent.Newton
