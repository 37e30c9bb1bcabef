import Descent.Objective.Storage
import Descent.Sparse

namespace Descent

abbrev Evaluation (α : Type) := ExceptT (Fault α) (StateM (Workspace α))

def Evaluation.run {α β : Type} (e : Evaluation α β) (w : Workspace α) :
    Except (Fault α) β × Workspace α :=
  StateT.run (ExceptT.run e) w

namespace Registry

variable {α : Type} [Scalar α]

omit [Scalar α] in
def freeArguments (r : Registry α) (b : Binding α) : List (Nat × Variable α) :=
  ((r.arguments b).zipIdx.filter fun (v, _) => !v.isConstant).map fun (v, k) => (k, v)

omit [Scalar α] in
def freeDimension (r : Registry α) (b : Binding α) : Nat :=
  (r.freeArguments b).foldr (fun (_, v) total => v.userDimension + total) 0

omit [Scalar α] in
def hessianElements (r : Registry α) : Nat :=
  r.terms.foldr (fun b total => r.freeDimension b * r.freeDimension b + total) 0

omit [Scalar α] in
def newPool (r : Registry α) (pool : Option Nat) : Option Nat :=
  if 1 < r.chunks.length then some r.chunks.length else pool

def prepare (r : Registry α) : Evaluation α (LocalStorage α) := do
  match (← get).storage with
  | some storage => return storage
  | none =>
      modify fun w => { w with
        storage := some r.newStorage
        hessianElements := r.hessianElements
        pool := r.newPool w.pool }
      return r.newStorage

def inStorage (r : Registry α) {β : Type}
    (work : LocalStorage α → Except (Fault α) β × LocalStorage α) : Evaluation α β := do
  let (result, storage) := work (← r.prepare)
  modify fun w => { w with storage := some storage }
  result

omit [Scalar α] in
def checkPoint (r : Registry α) (x : List α) : Except (Fault α) Unit :=
  if x.length ≠ r.scalars then .error (.pointSize x.length r.scalars) else .ok ()

omit [Scalar α] in
def solverPart (v : Variable α) (x : List α) : List α :=
  (x.drop v.globalIndex).take v.solverDimension

omit [Scalar α] in
def userPart (v : Variable α) (x : List α) : Except (Fault α) (List α) :=
  match v.change with
  | none => .ok ((x.drop v.globalIndex).take v.userDimension)
  | some c => c.toUser (solverPart v x)

omit [Scalar α] in
def storedValue (m : Memory α) (v : Variable α) : Except (Fault α) (List α) :=
  fit v.userDimension (m.load v.storage)

omit [Scalar α] in
def localValue (m : Memory α) (x : List α) (v : Variable α) : Except (Fault α) (List α) := do
  let values ← if v.isConstant then pure (m.load v.storage) else userPart v x
  fit v.userDimension values

omit [Scalar α] in
def writeLocals (value : Variable α → Except (Fault α) (List α)) :
    List (Variable α) → List (List α) → Except (Fault α) Unit × List (List α)
  | [], locals => (.ok (), locals)
  | v :: rest, locals =>
      match value v with
      | .error fault => (.error fault, locals)
      | .ok values =>
          let (result, others) := writeLocals value rest locals.tail
          (result, values :: others)

def spread (r : Registry α) (m : Memory α) (x : Option (List α)) : Evaluation α Unit :=
  r.inStorage fun s =>
    let (result, locals) := match x with
      | none => writeLocals (storedValue m) r.vars s.locals
      | some x => writeLocals (localValue m x) r.vars s.locals
    (result, { s with locals })

def readPoint (r : Registry α) (m : Memory α) : Except (Fault α) (List α) :=
  r.vars.foldlM (fun x v => do
    if v.isConstant then return x
    let part ← match v.change with
      | none => fit v.userDimension (m.load v.storage)
      | some c => do fit v.solverDimension (← c.toSolver (m.load v.storage))
    return overwrite v.globalIndex part x) (List.replicate r.scalars 0)

omit [Scalar α] in
def writePoint (r : Registry α) (x : List α) : ExceptT (Fault α) (StateM (Memory α)) Unit := do
  r.checkPoint x
  (r.vars.filter (!·.isConstant)).forM fun v => do
    let values ← userPart v x
    let m ← (← get).assign v.storage values
    set m

omit [Scalar α] in
def seen (locals : List (List α)) (arguments : List Nat) : List (List α) :=
  arguments.filterMap (locals[·]?)

def termValue (locals : List (List α)) (b : Binding α) (s : TermStorage α) :
    Except (Fault α) α :=
  ((b.term.evaluate .value (seen locals s.arguments)).run Derivatives.zero).1

def chunkValue (locals : List (List α)) (terms : List (Binding α × TermStorage α)) :
    Except (Fault α) α :=
  terms.foldlM (fun value (b, s) => do return value + (← termValue locals b s)) 0

def addAt : (offset : Nat) → (values entries : List α) → List α
  | 0, v :: values, e :: entries => (e + v) :: addAt 0 values entries
  | offset + 1, values, e :: entries => e :: addAt offset values entries
  | _, _, entries => entries

def solverGradient (x : List α) (v : Variable α) (part : List α) : Except (Fault α) (List α) :=
  match v.change with
  | none => .ok part
  | some c => do fit v.solverDimension (← c.pullGradient (solverPart v x) part)

def addGradients (x : List α) : List (Variable α × List α) → List α →
    Except (Fault α) Unit × List α
  | [], gradient => (.ok (), gradient)
  | (v, part) :: rest, gradient =>
      if v.isConstant then addGradients x rest gradient
      else match solverGradient x v part with
        | .error fault => (.error fault, gradient)
        | .ok values => addGradients x rest (addAt v.globalIndex values gradient)

omit [Scalar α] in
def writeTermBlocks (request : Request) (entry : Nat → Nat → Nat → Nat → α) (s : TermStorage α) :
    TermStorage α :=
  if request = .hessian then { s with blocks := s.blocks.map (Buffer.writeBlocks entry) } else s

def blockEntry (request : Request) (s : TermStorage α) (k l i j : Nat) : α :=
  if request = .hessian then Buffer.entry (((s.blocks.getD []).getD k []).getD l []) i j else 0

def evaluateTerm (r : Registry α) (request : Request) (locals : List (List α)) (x : List α)
    (b : Binding α) (s : TermStorage α) (w : Worker α) :
    Except (Fault α) α × TermStorage α × Worker α :=
  let scratch := Buffer.writeRows s.dimensions (fun _ _ => 0) w.scratch
  let s := writeTermBlocks request (fun _ _ _ _ => 0) s
  let given : Derivatives α := {
    gradient := Buffer.entry (Buffer.readRows s.dimensions scratch)
    hessian := blockEntry request s }
  let (result, filled) := (b.term.evaluate request (seen locals s.arguments)).run given
  let scratch := Buffer.writeRows s.dimensions filled.gradient scratch
  let s := writeTermBlocks request filled.hessian s
  match result with
  | .error fault => (.error fault, s, { w with scratch })
  | .ok value =>
      let parts := (r.arguments b).zip (Buffer.readRows s.dimensions scratch)
      let (added, gradient) := addGradients x parts w.gradient
      (added.map fun _ => value, s, { w with scratch, gradient })

def evaluateTerms (r : Registry α) (request : Request) (locals : List (List α)) (x : List α) :
    List (Binding α × TermStorage α) → α → Worker α →
      Except (Fault α) α × List (TermStorage α) × Worker α
  | [], total, w => (.ok total, [], w)
  | (b, s) :: rest, total, w =>
      match r.evaluateTerm request locals x b s w with
      | (.error fault, s, w) => (.error fault, s :: rest.map (·.2), w)
      | (.ok value, s, w) =>
          let (result, others, w) := r.evaluateTerms request locals x rest (total + value) w
          (result, s :: others, w)

def slice {β : Type} (entries : List β) (chunk : Nat × Nat) : List β :=
  (entries.drop chunk.1).take (chunk.2 - chunk.1)

/-- All workers evaluate their chunks, whether or not another one fails. Gives the outcomes in the
order of the workers. -/
def runWorkers (r : Registry α) (request : Request) (locals : List (List α)) (x : List α) :
    List (Worker α) → List (TermStorage α) →
      List (Except (Fault α) α) × List (Worker α) × List (TermStorage α)
  | [], terms => ([], [], terms)
  | w :: rest, terms =>
      let cleared := { w with gradient := w.gradient.map fun _ => 0 }
      let (result, done, w) :=
        r.evaluateTerms request locals x (slice (r.terms.zip terms) w.chunk) 0 cleared
      let (results, workers, terms) :=
        r.runWorkers request locals x rest (overwrite w.chunk.1 done terms)
      (result :: results, w :: workers, terms)

def totalValue (r : Registry α) (values : List α) : α := values.foldl (· + ·) r.constant

def totalGradient (r : Registry α) (gradients : List (List α)) : Vector α r.scalars :=
  Vector.ofFn fun i => gradients.foldl (fun sum gradient => sum + gradient.getD i.val 0) 0

def sumValues (r : Registry α) : Evaluation α α :=
  r.inStorage fun s =>
    let values := s.workers.mapM fun w =>
      chunkValue s.locals (slice (r.terms.zip s.terms) w.chunk)
    (r.totalValue <$> values, s)

def sumDerivatives (r : Registry α) (request : Request) (x : List α) : Evaluation α α :=
  r.inStorage fun s =>
    let (results, workers, terms) := r.runWorkers request s.locals x s.workers s.terms
    (r.totalValue <$> results.mapM id, { s with workers, terms })

omit [Scalar α] in
def countValue : Evaluation α Unit :=
  modify fun w => { w with evaluationsWithoutGradient := w.evaluationsWithoutGradient + 1 }

omit [Scalar α] in
def countGradient : Evaluation α Unit :=
  modify fun w => { w with evaluationsWithGradient := w.evaluationsWithGradient + 1 }

def value (r : Registry α) (m : Memory α) (x : Option (List α)) : Evaluation α α := do
  let _ ← r.prepare
  match x with
  | none => pure ()
  | some x => r.checkPoint x
  r.spread m x
  countValue
  r.sumValues

def gradient (r : Registry α) (m : Memory α) (x : List α) :
    Evaluation α (α × Vector α r.scalars) := do
  r.checkPoint x
  r.spread m (some x)
  countGradient
  let value ← r.sumDerivatives .gradient x
  return (value, r.totalGradient ((← r.prepare).workers.map (·.gradient)))

end Registry

end Descent
