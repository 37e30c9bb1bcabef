import Descent.Objective.Basic

namespace Descent

abbrev Edit (α : Type) := ReaderT (Memory α) (ExceptT (Fault α) (StateM (Objective α)))

def Edit.run {α β : Type} (e : Edit α β) (m : Memory α) (f : Objective α) :
    Except (Fault α) β × Objective α :=
  StateT.run (ExceptT.run (ReaderT.run e m)) f

namespace Objective

variable {α : Type}

def checkStorage (m : Memory α) (h : Handle) (dimension : Int) : Except (Fault α) Unit :=
  match m.object? h with
  | some (.array .double [size] _ _) =>
      if dimension ≤ 0 then .error (.dimensionNotPositive dimension)
      else if (size : Int) ≠ dimension then .error (.storageSize size dimension)
      else .ok ()
  | some (.array type shape _ _) => .error (.unfitStorage type.name shape)
  | some (.list _ _) => .error (.notStorage "list")
  | some (.other typeName) => .error (.notStorage typeName)
  | none => .error (.notStorage "object")

def setVariable (i : Nat) (v : Variable α) : Edit α Unit :=
  modify fun f => { f with vars := f.vars.set i v }

def relayoutAll : Edit α Unit := modify fun f => { f with toRegistry := f.toRegistry.relayout }

def changed (v : Variable α) (dimension : Int) (change : Option (Change α)) :
    Except (Fault α) (Variable α) := do
  if (v.userDimension : Int) ≠ dimension then throw (.dimensionChanged v.userDimension dimension)
  match change with
  | some c =>
      if v.userDimension ≠ c.userDimension then throw .userDimensionChanged
      if v.solverDimension ≠ c.solverDimension then throw .solverDimensionChanged
      return { v with change }
  | none => return { v with change, solverDimension := v.userDimension }

def replaceChange (i : Nat) (v : Variable α) (dimension : Int) (change : Option (Change α)) :
    Edit α Unit := do
  let w ← changed v dimension change
  setVariable i w
  if w.solverDimension ≠ v.solverDimension then relayoutAll
  modify invalidate

def newVariable (m : Memory α) (h : Handle) (dimension : Int) (change : Option (Change α))
    (next : Nat) : Except (Fault α) (Variable α) := do
  checkStorage m h dimension
  match change with
  | some c =>
      if dimension ≠ c.userDimension then throw .changeUnfit
      return ⟨h, dimension.toNat, c.solverDimension, next, false, change⟩
  | none => return ⟨h, dimension.toNat, dimension.toNat, next, false, none⟩

def enter (v : Variable α) : Edit α Unit := do
  let f ← get
  set { f with vars := f.vars ++ [v], directory := f.directory.insert v.storage f.vars.length }
  -- constants sit behind all free scalars
  if f.constants ≠ 0 then relayoutAll
  else modify fun f => { f with scalars := f.scalars + v.solverDimension }
  modify invalidate

def register (h : Handle) (dimension : Int) (change : Option (Change α)) : Edit α Unit := do
  enter (← newVariable (← read) h dimension change (← get).scalars)

def addVariable (h : Handle) (dimension : Int) (change : Option (Change α)) : Edit α Unit := do
  match (← get).find? h with
  | some (i, v) => replaceChange i v dimension change
  | none => register h dimension change

def setConstant (h : Handle) (isConstant : Bool) : Edit α Unit := do
  match (← get).find? h with
  | some (i, v) =>
      setVariable i { v with isConstant }
      relayoutAll
      modify invalidate
  | none => throw (.notRegistered .setConstant)

def bindArgument (t : Term α) (h : Handle) (argument : Nat) : Edit α Nat := do
  let dimension ← t.dimension argument
  match (← get).find? h with
  | some (i, v) =>
      if (v.userDimension : Int) ≠ dimension then
        throw (.argumentDimension argument v.userDimension dimension)
      return i
  | none =>
      let position := (← get).vars.length
      addVariable h dimension none
      return position

/-- Adds a term over the variables stored in the given arrays. Arrays that are not registered become
variables; if the term can not be added, they are unregistered again. -/
def addTerm (t : Term α) (handles : List Handle) : Edit α Unit := do
  if t.arity ≠ handles.length then throw (.arity handles.length t.arity)
  let before := (← get).vars.length
  let positions ← tryCatch
    (handles.zipIdx.mapM fun (h, argument) => bindArgument t h argument)
    fun fault => do
      modify fun f => { f with toRegistry := f.toRegistry.dropVariablesFrom before }.invalidate
      throw fault
  let binding : Binding α := ⟨t, positions⟩
  modify fun f => { f with terms := f.terms ++ [binding] }.invalidate

inductive Candidate (α : Type) where
  | term (t : Term α)
  | other (typeName : String)

def addCandidate : Candidate α → List Handle → Edit α Unit
  | .term t, handles => addTerm t handles
  | .other typeName, _ => throw (.notTerm typeName)

def setThreads (count : Int) : Edit α Unit := do
  if count ≤ 0 then throw (.threadCount count)
  modify fun f => { f with threads := count.toNat }.invalidate

def enableHessian (enabled : Bool) : Edit α Unit :=
  modify fun f => { f with hessianEnabled := enabled }.invalidate

def globalIndex (f : Objective α) (h : Handle) : Except (Fault α) Nat :=
  match f.find? h with
  | some (_, v) => .ok v.globalIndex
  | none => .error (.notRegistered .globalIndex)

def isConstant (f : Objective α) (h : Handle) : Except (Fault α) Bool :=
  match f.find? h with
  | some (_, v) => .ok v.isConstant
  | none => .error (.notRegistered .constancy)

end Objective

end Descent
