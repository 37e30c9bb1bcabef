import Descent.Objective.Evaluate

namespace Descent.Registry

variable {α : Type} [Scalar α]

omit [Scalar α] in
def checkHessian (r : Registry α) : Except (Fault α) Unit := do
  if !r.hessianEnabled then throw .hessianDisabled
  if r.vars.any fun v => !v.isConstant && v.change.isSome then throw .hessianChanged

omit [Scalar α] in
def freePairs (r : Registry α) (b : Binding α) : List ((Nat × Variable α) × (Nat × Variable α)) :=
  (r.freeArguments b).flatMap fun a => (r.freeArguments b).map fun a' => (a, a')

omit [Scalar α] in
def block (blocks : TermBlocks α) (k l : Nat) : List (List α) := (blocks.getD k []).getD l []

def addBlocks (r : Registry α) {n : Nat} (h : Dense α n n) (b : Binding α)
    (blocks : TermBlocks α) : Dense α n n :=
  (r.freePairs b).foldl (fun h ((k, v), (l, w)) =>
    h.addBlock v.globalIndex w.globalIndex (block blocks k l)) h

def denseHessian (r : Registry α) (blocks : List (TermBlocks α)) : Dense α r.scalars r.scalars :=
  (r.terms.zip blocks).foldl (fun h (b, blocks) => r.addBlocks h b blocks) .zero

omit [Scalar α] in
def entryPositions (r : Registry α) : List (Nat × Nat) :=
  r.terms.flatMap fun b => (r.freePairs b).flatMap fun ((_, v), (_, w)) =>
    (List.range v.userDimension).flatMap fun i =>
      (List.range w.userDimension).map fun j => (v.globalIndex + i, w.globalIndex + j)

omit [Scalar α] in
def entryValues (r : Registry α) (blocks : List (TermBlocks α)) : List α :=
  (r.terms.zip blocks).flatMap fun (b, blocks) =>
    (r.freePairs b).flatMap fun ((k, _), (l, _)) => (block blocks k l).flatten

omit [Scalar α] in
def pattern (r : Registry α) : Evaluation α (List (Nat × Nat)) := do
  match (← get).pattern with
  | some pattern => return pattern
  | none =>
      modify fun w => { w with pattern := some r.entryPositions }
      return r.entryPositions

def sparseMatrix (n : Nat) (positions : List (Nat × Nat)) (values : List α) :
    Except (Fault α) (Sparse α n n) := do
  let row := (positions.map (·.1)).foldl max 0
  let column := (positions.map (·.2)).foldl max 0
  if !positions.isEmpty && n ≤ row then throw (.beyondMatrix 0 row n)
  if !positions.isEmpty && n ≤ column then throw (.beyondMatrix 1 column n)
  return .ofTriplets ((positions.zip values).map fun ((i, j), v) => ⟨i, j, v⟩)

def hessian (r : Registry α) (m : Memory α) (x : List α) (sparse : Bool) :
    Evaluation α (α × Vector α r.scalars × Hessian α r.scalars) := do
  r.checkHessian
  r.checkPoint x
  r.spread m (some x)
  countGradient
  let value ← r.sumDerivatives .hessian x
  let storage ← r.prepare
  let blocks := storage.terms.map (·.blocks.getD [])
  let matrix ← if sparse then do
      pure (.sparse (← sparseMatrix r.scalars (← r.pattern) (r.entryValues blocks)))
    else pure (.dense (r.denseHessian blocks))
  return (value, r.totalGradient (storage.workers.map (·.gradient)), matrix)

/-- The pattern of the Hessian: at each position, the number of entries that fall on it. -/
def sparsityPattern (r : Registry α) : Evaluation α (Sparse α r.scalars r.scalars) := do
  let _ ← r.prepare
  let pattern ← r.pattern
  let matrix ← sparseMatrix r.scalars pattern (pattern.map fun _ => (1 : α))
  return matrix

def hessianDensity (r : Registry α) : Evaluation α α := do
  let _ ← r.prepare
  if r.scalars = 0 then return 0
  return Scalar.smaller 1
    (Scalar.ofNat (← get).hessianElements / Scalar.ofNat (r.scalars * r.scalars))

end Descent.Registry
