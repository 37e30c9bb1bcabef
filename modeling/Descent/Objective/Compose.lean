import Descent.Objective.Edit

namespace Descent.Objective

variable {α : Type} [Scalar α]

def addNumber (value : α) : Edit α Unit :=
  modify fun f => { f with constant := f.constant + value }

omit [Scalar α] in
def checkMerge (f g : Registry α) : Except (Fault α) Unit := do
  if (f.vars ++ g.vars).any (·.change.isSome) then throw .mergeChanged
  if g.vars.any (fun v =>
      (f.find? v.storage).any fun (_, known) => known.userDimension != v.userDimension) then
    throw .mergeDimensions

omit [Scalar α] in
def adopt (g : Registry α) : Edit α Unit := do
  g.vars.forM fun v => addVariable v.storage v.userDimension none
  g.terms.forM fun b => addTerm b.term ((g.arguments b).map (·.storage))

def merge (g : Registry α) : Edit α Unit := do
  let f ← get
  checkMerge f.toRegistry g
  tryCatch (adopt g) fun fault => do
    modify fun f' =>
      let kept := { f'.toRegistry with terms := f'.terms.take f.terms.length }
      { f' with toRegistry := kept.dropVariablesFrom f.vars.length }.invalidate
    throw fault
  addNumber g.constant

inductive Summand (α : Type) where
  | number (value : α)
  | objective (g : Registry α)
  | other (typeName : String)

def add : Summand α → Edit α Unit
  | .number value => addNumber value
  | .objective g => merge g
  | .other typeName => throw (.unsupportedSummand typeName)

omit [Scalar α] in
def rebuild (g : Registry α) : Edit α Unit := do
  g.vars.forM fun v => addVariable v.storage v.userDimension v.change
  (g.vars.filter (·.isConstant)).forM fun v => setConstant v.storage true
  g.terms.forM fun b => addTerm b.term ((g.arguments b).map (·.storage))

def copy (m : Memory α) (f : Objective α) : Except (Fault α) (Objective α) := do
  let fresh ← new? f.threads
  let (result, g) := (rebuild f.toRegistry).run m
    { fresh with hessianEnabled := f.hessianEnabled, constant := f.constant }
  result
  return g

end Descent.Objective
