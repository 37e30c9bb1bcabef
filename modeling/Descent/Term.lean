import Descent.Interval

namespace Descent

inductive Request where
  | value
  | gradient
  | hessian
  deriving DecidableEq

structure Derivatives (α : Type) where
  gradient : (argument component : Nat) → α
  hessian : (argument argument' component component' : Nat) → α

def Derivatives.zero {α : Type} [Zero α] : Derivatives α := ⟨fun _ _ => 0, fun _ _ _ _ => 0⟩

structure Jet (α : Type) where
  value : α
  gradient : (argument component : Nat) → α
  hessian : (argument argument' component component' : Nat) → α

/-- An evaluation that gives the value and leaves the derivatives in the buffers. What it has
written survives a failure. -/
abbrev Filling (α : Type) := ExceptT (Fault α) (StateM (Derivatives α))

def Jet.put {α : Type} (jet : Jet α) : Filling α α := do
  set (⟨jet.gradient, jet.hessian⟩ : Derivatives α)
  return jet.value

structure TermKind where
  className : String
  streamName : String
  deriving DecidableEq

structure Term (α : Type) where
  kind : TermKind
  arity : Nat
  dimension : Nat → Except (Fault α) Int
  evaluate : Request → List (List α) → Filling α α
  range : List (List (Interval α)) → Except (Fault α) (Interval α)
  payload : String

def Term.noRange {α : Type} (kind : TermKind) (_ : List (List (Interval α))) :
    Except (Fault α) (Interval α) :=
  .error (.noIntervals kind.className)

end Descent
