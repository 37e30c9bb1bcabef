import Descent.LineSearch
import Descent.Sparse

/-!
# Runs

What the two solvers share. A run works on an oracle for the function, whose state survives failed
evaluations, and writes a journal: its log, and what it showed to the caller before each step.

An iteration either ends the run or gives the state for the next one. The number of iterations left
decides when the last stopping test applies, and bounds the loop.
-/

namespace Descent

structure Oracle (σ α : Type) (n : Nat) where
  value : Vector α n → Eval σ α α
  gradient : Vector α n → Eval σ α (α × Vector α n)
  hessian : Vector α n → Eval σ α (α × Vector α n × Hessian α n)

structure Sight (α : Type) (n : Nat) where
  value : α
  point : Vector α n
  gradient : Vector α n
  hessian : Option (Hessian α n)

structure Journal (α : Type) (n : Nat) where
  entries : List (Entry α)
  sights : List (Sight α n)

structure RunSetup (α : Type) (n : Nat) where
  config : Config α
  searchBudget : Nat
  proceed : Nat → Sight α n → Bool

abbrev Run (σ α : Type) (n : Nat) := StateM (σ × Journal α n)

/-- How an iteration ends: with the run, with the state for the next one, or with a failure that the
run does not contain. -/
inductive Turn (α ι : Type) where
  | stop (exit : ExitCondition) (state : ι)
  | next (state : ι)
  | abandon (fault : Fault α)

structure Iterate (α : Type) (n : Nat) where
  point : Vector α n
  iterations : Int
  startNorm : Option α
  stepNorm : Option α
  previous : Option α
  step : α
  rows : Nat

namespace Iterate

variable {α : Type} [Scalar α] {n : Nat}

def start (point : Vector α n) (iterations : Int) : Iterate α n :=
  ⟨point, iterations, none, none, none, 0, 0⟩

def accepted (s : Iterate α n) : Option α := if 0 < s.step then s.previous else none

def standing (s : Iterate α n) (value : α) (g : Vector α n) (exhausted : Bool) : Standing α :=
  let norm := Vec.maxAbs g
  { value
    gradientNorm := norm
    startNorm := s.startNorm.getD norm
    pointNorm := Vec.norm s.point
    stepNorm := s.stepNorm
    before := s.accepted
    exhausted }

def advance (s : Iterate α n) (value : α) (g : Vector α n) (p : Vector α n) (step : α) :
    Iterate α n :=
  let move := step * p
  { point := s.point + move
    iterations := s.iterations + 1
    startNorm := some (s.startNorm.getD (Vec.maxAbs g))
    stepNorm := some (Vec.norm move)
    previous := some value
    step
    rows := s.rows + 1 }

end Iterate

namespace Run

variable {σ α : Type} {n : Nat}

def log (entries : List (Entry α)) : Run σ α n Unit :=
  modify fun (oracle, journal) => (oracle, { journal with entries := journal.entries ++ entries })

def progress (message : Message α) : Run σ α n Unit := log [⟨.progress, message⟩]

def attempt {β : Type} (e : Eval σ α β) : Run σ α n (Except (Fault α) β) := fun (oracle, journal) =>
  let (result, oracle) := StateT.run (ExceptT.run e) oracle
  (result, oracle, journal)

def row (header line : Message α) (index : Nat) : Run σ α n Unit :=
  log ((Table.row header line index).map fun message => ⟨.progress, message⟩)

def shown (setup : RunSetup α n) (sight : Sight α n) : Run σ α n Bool := do
  let (oracle, journal) ← get
  set (oracle, { journal with sights := journal.sights ++ [sight] })
  return setup.proceed (journal.sights.length + 1) sight

def failed {ι : Type} (solver : Solver) (stage : Stage) (fault : Fault α) (state : ι) :
    Run σ α n (Turn α ι) := do
  log [⟨.warning, .failed solver stage fault⟩, ⟨.progress, .failed solver stage fault⟩]
  return .stop .internalError state

/-- Repeats iterations until one of them ends the run. With no iterations left, the stopping tests
always do. -/
def repeatTurn {ι : Type} (turn : (exhausted : Bool) → ι → Run σ α n (Turn α ι)) :
    (remaining : Nat) → ι → Run σ α n (Except (Fault α) (ExitCondition × ι))
  | 0, state => do
      match ← turn true state with
      | .stop exit state => return .ok (exit, state)
      | .next state => return .ok (.noConvergence, state)
      | .abandon fault => return .error fault
  | remaining + 1, state => do
      match ← turn false state with
      | .stop exit state => return .ok (exit, state)
      | .next state => repeatTurn turn remaining state
      | .abandon fault => return .error fault

def remaining (c : Config α) (iterations : Int) : Nat := (c.maximumIterations - iterations).toNat

end Run

end Descent
