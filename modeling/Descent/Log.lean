import Descent.Exit

namespace Descent

inductive Solver where
  | newton
  | lbfgs

inductive Stage where
  | evaluation
  | factorization
  | lineSearch

inductive Message (α : Type) where
  | newtonStart (scalars terms : Nat) (sparse : Bool) (method : FactorizationMethod)
  | lbfgsStart (scalars terms historySize : Nat)
  | columns (solver : Solver)
  | newtonRow (iterations : Int) (value gradientNorm step shift : α)
  | lbfgsRow (iterations : Int) (value gradientNorm step : α) (history : Nat)
  | failed (solver : Solver) (stage : Stage) (fault : Fault α)
  | summary (exit : ExitCondition) (iterations : Int)
  | notDescent (slope : α)
  | stepUnderflow (evaluations : Nat) (step : α)
  | hessianModified (method : FactorizationMethod) (shift : α) (modified attempts : Nat)
  | updateSkipped (curvature : α)
  | directionDiscarded
  | restarted (iterations : Int)

inductive Channel where
  | progress
  | debug
  | warning

structure Entry (α : Type) where
  channel : Channel
  message : Message α

namespace Table

variable {μ : Type}

def headerEvery : Nat := 20

def row (header line : μ) (index : Nat) : List μ :=
  if index ≠ 0 ∧ index % headerEvery = 0 then [header, line] else [line]

def lines (header : μ) (rows : List μ) : List μ :=
  header :: rows.zipIdx.flatMap fun (line, index) => row header line index

end Table

end Descent
