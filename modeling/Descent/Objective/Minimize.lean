import Descent.Objective.Hessian
import Descent.Run.Lbfgs
import Descent.Run.Newton

namespace Descent

structure Solution (α : Type) (n : Nat) where
  exit : ExitCondition
  iterations : Int
  journal : Journal α n
  shifts : List α
  pairs : Nat

namespace Registry

variable {α : Type} [Scalar α]

def oracle (r : Registry α) (m : Memory α) (sparse : Bool) : Oracle (Workspace α) α r.scalars where
  value x := r.value m (some x.toList)
  gradient x := r.gradient m x.toList
  hessian x := r.hessian m x.toList sparse

/-- Whether Newton's method stores the Hessian sparsely. In automatic mode the density is looked at
for large objectives only. -/
def useSparse (r : Registry α) (c : Config α) : Evaluation α Bool := do
  match c.sparsityMode with
  | .sparse => return true
  | .dense => return false
  | .auto =>
      if (r.scalars : Int) < c.autoSparseMinSize then return false
      return decide ((← r.hessianDensity) ≤ c.autoSparseMaxDensity)

end Registry

structure Surroundings (α : Type) where
  workspace : Workspace α
  memory : Memory α

abbrev Minimization (α : Type) := ExceptT (Fault α) (StateM (Surroundings α))

namespace Minimization

variable {α : Type} [Scalar α]

omit [Scalar α] in
def evaluating {β : Type} (e : Evaluation α β) : Minimization α β := do
  let s ← get
  let (result, workspace) := e.run s.workspace
  set { s with workspace }
  match result with
  | .ok value => return value
  | .error fault => throw fault

def startPoint (r : Registry α) : Minimization α (Vector α r.scalars) := do
  let x ← r.readPoint (← get).memory
  return Vector.ofFn fun i => x.getD i.val 0

omit [Scalar α] in
def writeBack (r : Registry α) (x : Vector α r.scalars) : Minimization α Unit := do
  let s ← get
  let (result, memory) := StateT.run (ExceptT.run (r.writePoint x.toList)) s.memory
  set { s with memory }
  match result with
  | .ok () => return
  | .error fault => throw fault

omit [Scalar α] in
def iterating {n : Nat} {ι : Type}
    (run : Run (Workspace α) α n (Except (Fault α) (ExitCondition × ι))) :
    Minimization α (ExitCondition × ι × Journal α n) := do
  let s ← get
  let (result, workspace, journal) := StateT.run run (s.workspace, ⟨[], []⟩)
  set { s with workspace }
  match result with
  | .ok (exit, state) => return (exit, state, journal)
  | .error fault => throw fault

omit [Scalar α] in
def framed {n : Nat} (before : List (Message α)) (journal : Journal α n) (after : Message α) :
    Journal α n :=
  let progress (message : Message α) : Entry α := ⟨.progress, message⟩
  { journal with entries := before.map progress ++ journal.entries ++ [progress after] }

def newtonOn (r : Registry α) (oracle : Memory α → Bool → Oracle (Workspace α) α r.scalars)
    (setup : RunSetup α r.scalars) (rule : Newton.StepRule α r.scalars) (iterations : Int) :
    Minimization α (Solution α r.scalars) := do
  let start ← startPoint r
  let sparse ← evaluating (r.useSparse setup.config)
  let memory := (← get).memory
  let (exit, state, journal) ←
    iterating (Newton.run setup (oracle memory sparse) rule start iterations)
  writeBack r state.iterate.point
  let opening := [
    .newtonStart r.scalars r.terms.length sparse setup.config.factorizationMethod,
    .columns .newton]
  return {
    exit
    iterations := state.iterate.iterations
    journal := framed opening journal (.summary exit state.iterate.iterations)
    shifts := state.shifts
    pairs := 0 }

def newton (r : Registry α) (setup : RunSetup α r.scalars)
    (rule : Newton.StepRule α r.scalars) (iterations : Int) :
    Minimization α (Solution α r.scalars) :=
  newtonOn r r.oracle setup rule iterations

def lbfgsOn (r : Registry α) (oracle : Memory α → Bool → Oracle (Workspace α) α r.scalars)
    (setup : RunSetup α r.scalars) (iterations : Int) :
    Minimization α (Solution α r.scalars) := do
  let start ← startPoint r
  let memory := (← get).memory
  let (exit, state, journal) ←
    iterating (Lbfgs.run setup (oracle memory false) start iterations)
  writeBack r state.iterate.point
  let opening := [
    .lbfgsStart r.scalars r.terms.length setup.config.historySize, .columns .lbfgs]
  return {
    exit
    iterations := state.iterate.iterations
    journal := framed opening journal (.summary exit state.iterate.iterations)
    shifts := []
    pairs := state.history.pairs.length }

def lbfgs (r : Registry α) (setup : RunSetup α r.scalars) (iterations : Int) :
    Minimization α (Solution α r.scalars) :=
  lbfgsOn r r.oracle setup iterations

def solve (r : Registry α) (setup : RunSetup α r.scalars) (method : Method) (iterations : Int) :
    Minimization α (Solution α r.scalars) :=
  match method with
  | .newton => newton r setup (Regularizer.step setup.config.factorizationMethod) iterations
  | .lbfgs => lbfgs r setup iterations
  | other => throw (.methodUnavailable other.name)

end Minimization

def Method.parse {α : Type} (text : String) : Except (Fault α) Method :=
  match Method.ofText? text with
  | some method => .ok method
  | none => .error (.unknownMethod text)

namespace Objective

variable {α : Type} [Scalar α]

def minimize (f : Objective α) (m : Memory α) (setup : RunSetup α f.scalars) (method : Method)
    (iterations : Int) :
    Except (Fault α) (Solution α f.scalars) × Objective α × Memory α :=
  let (result, s) :=
    StateT.run (ExceptT.run (Minimization.solve f.toRegistry setup method iterations))
      ⟨f.workspace, m⟩
  (result, { f with workspace := s.workspace }, s.memory)

def evaluating {β : Type} (f : Objective α) (e : Evaluation α β) :
    Except (Fault α) β × Objective α :=
  let (result, workspace) := e.run f.workspace
  (result, { f with workspace })

end Objective

end Descent
