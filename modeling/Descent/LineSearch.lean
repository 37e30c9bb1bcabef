import Descent.Log
import Descent.Vec

namespace Descent

abbrev Eval (σ α β : Type) := ExceptT (Fault α) (StateM σ) β

inductive SearchResult (α : Type) where
  | accepted (step : α) (evaluations : Nat)
  | notDescent (slope : α)
  | underflow (step : α) (evaluations : Nat)
  | unfinished (step : α) (evaluations : Nat)

namespace SearchResult

variable {α : Type}

def step [Scalar α] : SearchResult α → α
  | accepted step _ => step
  | _ => 0

def evaluations : SearchResult α → Nat
  | accepted _ evaluations | underflow _ evaluations | unfinished _ evaluations => evaluations
  | notDescent _ => 0

def isFinished : SearchResult α → Bool
  | unfinished _ _ => false
  | _ => true

def entries : SearchResult α → List (Entry α)
  | notDescent slope => [⟨.debug, .notDescent slope⟩]
  | underflow step evaluations => [⟨.debug, .stepUnderflow evaluations step⟩]
  | accepted _ _ | unfinished _ _ => []

end SearchResult

namespace LineSearch

variable {α σ : Type} [Scalar α] {n : Nat}

def bound (c : Config α) (value slope step : α) : α :=
  value + c.sufficientDecrease * step * slope

def backtrack (c : Config α) (evaluate : Vector α n → Eval σ α α) (x p : Vector α n)
    (value slope : α) : (budget evaluations : Nat) → (step : α) → Eval σ α (SearchResult α)
  | 0, evaluations, step => return .unfinished step evaluations
  | budget + 1, evaluations, step => do
      if 0 < step then
        let trial := x + step * p
        if Vec.same trial x then return .underflow step evaluations
        let reached ← evaluate trial
        if reached ≤ bound c value slope step then return .accepted step (evaluations + 1)
        backtrack c evaluate x p value slope budget (evaluations + 1) (step * c.contraction)
      else return .underflow step evaluations

def search (c : Config α) (budget : Nat) (evaluate : Vector α n → Eval σ α α) (x : Vector α n)
    (value : α) (g p : Vector α n) (start : α) : Eval σ α (SearchResult α) :=
  let slope := Vec.dot g p
  if slope < 0 then backtrack c evaluate x p value slope budget 0 start
  else return .notDescent slope

end LineSearch

end Descent
