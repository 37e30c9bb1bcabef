import Descent.Log
import Descent.Factor.BunchKaufman
import Descent.Factor.Cholesky
import Descent.Factor.Elimination

namespace Descent

structure NewtonStep (α : Type) (n : Nat) where
  direction : Vector α n
  method : FactorizationMethod
  shift : α
  modified : Nat
  attempts : Nat

def NewtonStep.entries {α : Type} [Scalar α] {n : Nat} (s : NewtonStep α n) : List (Entry α) :=
  if 0 < s.shift then [⟨.debug, .hessianModified s.method s.shift s.modified s.attempts⟩] else []

namespace Regularizer

variable {α : Type} [Scalar α] {n : Nat}

/-- The bound to which eigenvalues are raised: `2 ^ -26`, or that part of the largest entry. -/
def leastEigenvalue (h : Dense α n n) : α :=
  Scalar.ratio 1 67108864 * Scalar.larger 1 h.maxAbs

section

variable (decompose : (a b c : α) → Rotation α)

omit [Scalar α] in
def pairRotation (d : Dense α n n) (i j : Fin n) : Rotation α :=
  decompose (d.get i i) (d.get j i) (d.get j j)

omit [Scalar α] in
def blockEigenvalues (d : Dense α n n) : Block n → List α
  | .single i => [d.get i i]
  | .double i j =>
      let rotation := pairRotation decompose d i j
      [rotation.first, rotation.second]

def lowEigenvalues (least : α) (d : Dense α n n) (b : Block n) : List α :=
  (blockEigenvalues decompose d b).filter (· < least)

def largestLift (least : α) (low : List α) : α :=
  low.foldl (fun largest w => Scalar.larger largest (least - w)) 0

def raise (least w : α) : α := if w < least then least else w

def solveBlock (least : α) (d : Dense α n n) (y : Vector α n) (z : Vector α n) :
    Block n → Vector α n
  | .single i => Vec.put z i (y.get i / raise least (d.get i i))
  | .double i j =>
      let rotation := pairRotation decompose d i j
      let c := rotation.cosine
      let s := rotation.sine
      let first := (c * y.get i + s * y.get j) / raise least rotation.first
      let second := (c * y.get j - s * y.get i) / raise least rotation.second
      Vec.put (Vec.put z i (c * first - s * second)) j (s * first + c * second)

def solveBlocks (least : α) (d : Dense α n n) (blocks : List (Block n)) (y : Vector α n) :
    Vector α n :=
  blocks.foldl (solveBlock decompose least d y) (Vector.replicate n 0)

end

def requireFinite (finite : Bool) : Except (Fault α) Unit :=
  if finite then .ok () else .error .notFinite

def raisedStep (decompose : (a b c : α) → Rotation α) (least : α) (factor : BlockFactor α n) (g : Vector α n) :
    Except (Fault α) (NewtonStep α n) := do
  let blocks := Block.scan factor.middle
  requireFinite factor.middle.isFinite
  let low := blocks.flatMap (lowEigenvalues decompose least factor.middle)
  let b := Vec.gather factor.order (-g)
  requireFinite (factor.lower.isFinite && b.all Scalar.isFinite)
  let z := solveBlocks decompose least factor.middle blocks (factor.lower.forward b)
  requireFinite (z.all Scalar.isFinite)
  return {
    direction := Vec.scatter factor.order (factor.lower.backward z)
    method := .blocks
    shift := largestLift least low
    modified := low.length
    attempts := 1 }

def raised (h : Dense α n n) (g : Vector α n) : Except (Fault α) (NewtonStep α n) := do
  let symmetric := h.symmetrized
  requireFinite symmetric.isFinite
  raisedStep Rotation.ofSymmetric (leastEigenvalue symmetric) (.ofSymmetric symmetric) g

def leastShift : α := Scalar.ratio 1 1000

def firstShift (diagonal : List α) : α :=
  match diagonal with
  | [] => 0
  | first :: rest =>
      let least := rest.foldl Scalar.infimum first
      if 0 < least then 0 else leastShift - least

def nextShift? (shift : α) : Except (Fault α) α :=
  let next := Scalar.larger (Scalar.ofNat 2 * shift) leastShift
  if Scalar.isFinite next then .ok next else .error .noShift

section

variable {φ : Type} (factor? : α → Except (Fault α) (Option φ))

/-- One attempt leads to the next shift, or it ends the loop with a factorization, its shift and the
number of attempts, or with a fault. -/
def attempt (attempts : Nat) (shift : α) : (Nat × α) ⊕ Except (Fault α) (φ × α × Nat) :=
  match factor? shift with
  | .error fault => .inr (.error fault)
  | .ok (some factor) => .inr (.ok (factor, shift, attempts + 1))
  | .ok none =>
      match nextShift? shift with
      | .error fault => .inr (.error fault)
      | .ok next => .inl (attempts + 1, next)

instance : Inhabited (Fault α) := ⟨.noShift⟩

def findShift (attempts : Nat) (shift : α) : Except (Fault α) (φ × α × Nat) :=
  Id.run (repeatM (fun tried => pure (attempt factor? tried.1 tried.2)) (attempts, shift))

end

def shiftedStep {φ : Type} (factor? : α → Except (Fault α) (Option φ))
    (solve : φ → Except (Fault α) (Vector α n)) (diagonal : List α) :
    Except (Fault α) (NewtonStep α n) := do
  let (factor, shift, attempts) ← findShift factor? 0 (firstShift diagonal)
  let direction ← solve factor
  return { direction, method := .shifts, shift, modified := 0, attempts }

def denseFactor? (h : Dense α n n) (shift : α) : Except (Fault α) (Option (Dense α n n)) := do
  let shifted := h.shifted shift
  requireFinite shifted.isFinite
  return shifted.cholesky?

def denseSolve (g : Vector α n) (l : Dense α n n) : Except (Fault α) (Vector α n) := do
  requireFinite (l.isFinite && g.all Scalar.isFinite)
  return l.backward (l.forward (-g))

def shiftedDense (h : Dense α n n) (g : Vector α n) : Except (Fault α) (NewtonStep α n) :=
  let symmetric := h.symmetrized
  shiftedStep (denseFactor? symmetric) (denseSolve g) symmetric.diagonal

def sparseFactor? (h : Dense α n n) (shift : α) : Option (PivotFactor α n) :=
  PivotFactor.ofPositive? (.ofFn fun i j => if i = j then h.get i j + shift else h.get i j)

def shiftedSparse (h : Sparse α n n) (g : Vector α n) : Except (Fault α) (NewtonStep α n) :=
  let symmetric := h.toDense.symmetrized
  shiftedStep (fun shift => .ok (sparseFactor? symmetric shift)) (fun factor => .ok (factor.solve (-g)))
    symmetric.diagonal

def step (method : FactorizationMethod) (h : Hessian α n) (g : Vector α n) :
    Except (Fault α) (NewtonStep α n) :=
  match h, method with
  | .sparse h, _ => shiftedSparse h g
  | .dense h, .blocks => raised h g
  | .dense h, .shifts => shiftedDense h g

inductive AnyMatrix (α : Type) (m n : Nat) where
  | dense (matrix : Dense α m n)
  | sparse (matrix : Sparse α m n)

def AnyMatrix.toHessian {m n k : Nat} (h : AnyMatrix α m n) (rows : m = k) (columns : n = k) :
    Hessian α k :=
  match m, n, rows, columns, h with
  | _, _, rfl, rfl, .dense matrix => .dense matrix
  | _, _, rfl, rfl, .sparse matrix => .sparse matrix

def stepChecked (method : FactorizationMethod) {m n k : Nat} (h : AnyMatrix α m n)
    (g : Vector α k) : Except (Fault α) (NewtonStep α k) :=
  if square : n = m then
    if fits : m = k then step method (h.toHessian fits (square.trans fits)) g
    else .error (.gradientSize m n k)
  else .error (.notSquare m n)

end Regularizer

end Descent
