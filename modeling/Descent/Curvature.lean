import Descent.Log
import Descent.Vec

namespace Descent

structure CurvaturePair (α : Type) (n : Nat) where
  step : Vector α n
  change : Vector α n
  weight : α

structure History (α : Type) (n : Nat) where
  limit : Nat
  pairs : List (CurvaturePair α n)

namespace History

variable {α : Type} {n : Nat}

def empty (limit : Nat) : History α n := ⟨limit, []⟩

def clear (h : History α n) : History α n := { h with pairs := [] }

def push (h : History α n) (pair : CurvaturePair α n) : History α n :=
  let pairs := h.pairs ++ [pair]
  -- the oldest pairs above the limit are dropped
  { h with pairs := pairs.drop (pairs.length - h.limit) }

variable [Scalar α]

def divide (a b : α) : Except (Fault α) α :=
  if Scalar.same b 0 then .error .divisionByZero else .ok (a / b)

def curvatureBound (s y : Vector α n) : α :=
  Scalar.ratio 1 1000000000000 * Vec.norm s * Vec.norm y

/-- Adds a step and its gradient change, unless their product is too small. Tells whether it did. -/
def update (h : History α n) (s y : Vector α n) :
    Except (Fault α) (Bool × History α n × List (Entry α)) := do
  let curvature := Vec.dot s y
  if curvature ≤ curvatureBound s y then
    return (false, h, [⟨.debug, .updateSkipped curvature⟩])
  let weight ← divide 1 curvature
  return (true, h.push ⟨s, y, weight⟩, [])

/-- The first loop, from the newest pair to the oldest: the reduced vector, and the coefficient of
each pair, oldest first. -/
def reduce (pairs : List (CurvaturePair α n)) (q : Vector α n) : Vector α n × List α :=
  pairs.foldr (fun pair (q, coefficients) =>
    let a := pair.weight * Vec.dot pair.step q
    (q - (a * pair.change : Vector α n), a :: coefficients)) (q, [])

def restore (pairs : List (CurvaturePair α n × α)) (q : Vector α n) : Vector α n :=
  pairs.foldl (fun q (pair, a) =>
    let b := pair.weight * Vec.dot pair.change q
    q + ((a - b) * pair.step : Vector α n)) q

def scale (h : History α n) : Except (Fault α) α :=
  match h.pairs.getLast? with
  | none => .ok 1
  | some pair => divide (Vec.dot pair.step pair.change) (Vec.dot pair.change pair.change)

def direction (h : History α n) (g : Vector α n) : Except (Fault α) (Vector α n) := do
  let (q, coefficients) := reduce h.pairs (-g)
  let factor ← h.scale
  return restore (h.pairs.zip coefficients) (factor * q)

structure Search (α : Type) (n : Nat) where
  direction : Vector α n
  start : α
  history : History α n
  entries : List (Entry α)

def steepest (start : α) (g : Vector α n) : Vector α n × α :=
  let largest := Vec.maxAbs g
  (-g, if 1 < largest then start / largest else start)

/-- The direction of the history if it descends. Otherwise the history is discarded and the
direction is minus the gradient. -/
def searchDirection (start : α) (h : History α n) (g : Vector α n) :
    Except (Fault α) (Search α n) := do
  let (down, cut) := steepest start g
  if h.pairs.isEmpty then return ⟨down, cut, h, []⟩
  let p ← h.direction g
  if Vec.dot g p < 0 then return ⟨p, start, h, []⟩
  return ⟨down, cut, h.clear, [⟨.debug, .directionDiscarded⟩]⟩

end History

end Descent
