import Descent.Change
import Descent.Directory
import Descent.Partition
import Descent.Scalar
import Descent.Term

/-!
# Objectives

An objective is a constant plus the sum of its terms, each bound to registered variables. Variables
are arrays of the caller, known by their handles. The free variables occupy the solver scalars from
zero on, in the order of registration, and the constant ones the scalars behind them.

The registry is all that defines the function. The workspace beside it holds what evaluations derive
from the registry and the buffers they work in, and is dropped by every change of the registry.
-/

namespace Descent

structure Variable (α : Type) where
  storage : Handle
  userDimension : Nat
  solverDimension : Nat
  globalIndex : Nat
  isConstant : Bool
  change : Option (Change α)

structure Binding (α : Type) where
  term : Term α
  positions : List Nat

structure Registry (α : Type) where
  constant : α
  vars : List (Variable α)
  terms : List (Binding α)
  directory : Directory
  scalars : Nat
  constants : Nat
  threads : Nat
  hessianEnabled : Bool

abbrev TermBlocks (α : Type) := List (List (List (List α)))

structure TermStorage (α : Type) where
  arguments : List Nat
  dimensions : List Nat
  blocks : Option (TermBlocks α)

structure Worker (α : Type) where
  chunk : Nat × Nat
  gradient : List α
  scratch : List (List α)

/-- What evaluations work in. The buffers hold what earlier evaluations have left there. -/
structure LocalStorage (α : Type) where
  locals : List (List α)
  workers : List (Worker α)
  terms : List (TermStorage α)

structure Workspace (α : Type) where
  storage : Option (LocalStorage α)
  pattern : Option (List (Nat × Nat))
  hessianElements : Nat
  pool : Option Nat
  evaluationsWithoutGradient : Nat
  evaluationsWithGradient : Nat

structure Objective (α : Type) extends Registry α where
  workspace : Workspace α

namespace Workspace

variable {α : Type}

def unused : Workspace α := ⟨none, none, 0, none, 0, 0⟩

def invalidate (w : Workspace α) : Workspace α := { w with storage := none, pattern := none }

end Workspace

namespace Registry

variable {α : Type}

def indexOf? (r : Registry α) (h : Handle) : Option Nat := r.directory.find? h

def find? (r : Registry α) (h : Handle) : Option (Nat × Variable α) := do
  let i ← r.indexOf? h
  let v ← r.vars[i]?
  return (i, v)

def arguments (r : Registry α) (b : Binding α) : List (Variable α) :=
  b.positions.filterMap (r.vars[·]?)

def place (constant : Bool) : Nat → List (Variable α) → List (Variable α) × Nat
  | next, [] => ([], next)
  | next, v :: rest =>
      if v.isConstant = constant then
        let (placed, last) := place constant (next + v.solverDimension) rest
        ({ v with globalIndex := next } :: placed, last)
      else
        let (placed, last) := place constant next rest
        (v :: placed, last)

/-- Numbers all scalars anew: those of free variables first, then those of constant ones. -/
def relayout (r : Registry α) : Registry α :=
  let (free, scalars) := place false 0 r.vars
  let (all, size) := place true scalars free
  { r with vars := all, scalars, constants := size - scalars }

def dropVariablesFrom (r : Registry α) (count : Nat) : Registry α :=
  { r with
    vars := r.vars.take count
    directory := ((r.vars.drop count).map Variable.storage).foldl Directory.erase r.directory }.relayout

end Registry

namespace Objective

variable {α : Type}

def invalidate (f : Objective α) : Objective α := { f with workspace := f.workspace.invalidate }

def close (f : Objective α) : Objective α := { f with workspace.pool := none }

variable [Scalar α]

/-- The constant zero, without variables and terms; threads, the use of Hessians, the pool and the
counts of evaluations stay. -/
def clear (f : Objective α) : Objective α where
  constant := 0
  vars := []
  terms := []
  directory := .empty
  scalars := 0
  constants := 0
  threads := f.threads
  hessianEnabled := f.hessianEnabled
  workspace := { f.workspace.invalidate with hessianElements := 0 }

def ofThreads (threads : Nat) : Objective α where
  constant := 0
  vars := []
  terms := []
  directory := .empty
  scalars := 0
  constants := 0
  threads
  hessianEnabled := true
  workspace := .unused

def new? (threads : Int) : Except (Fault α) (Objective α) :=
  if threads ≤ 0 then .error (.newThreadCount threads) else .ok (ofThreads threads.toNat)

end Objective

end Descent
