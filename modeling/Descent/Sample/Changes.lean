import Descent.Change
import Descent.Scalar

namespace Descent.Sample

variable {α : Type}

def coordinate (x : List α) (i : Nat) : Except (Fault α) α :=
  match x[i]? with
  | some a => .ok a
  | none => .error (.noComponent i x.length)

def exponentialChange [Elementary α] (dimension : Nat) : Change α where
  className := "ExpChange"
  userDimension := dimension
  solverDimension := dimension
  toUser t := .ok (t.map Elementary.exp)
  toSolver x := .ok (x.map Elementary.log)
  pullGradient t g := .ok (List.zipWith (fun t g => g * Elementary.exp t) t g)

def circlePoint [Elementary α] (t : α) : Except (Fault α) (α × α) :=
  if Scalar.isInfinite t then .error .domain else .ok (Elementary.cos t, Elementary.sin t)

def angleChange [Elementary α] : Change α where
  className := "Angle"
  userDimension := 2
  solverDimension := 1
  toUser t := do
    let (c, s) ← circlePoint (t.headD 0)
    return [c, s]
  toSolver x := do
    let ordinate ← coordinate x 1
    let abscissa ← coordinate x 0
    return [Elementary.atan2 ordinate abscissa]
  pullGradient t g := do
    let (c, s) ← circlePoint (t.headD 0)
    return [-s * g.getD 0 0 + c * g.getD 1 0]

def affineChange [Scalar α] (dimension : Nat) (scale shift : α) : Change α where
  className := "Affine"
  userDimension := dimension
  solverDimension := dimension
  toUser t := .ok (t.map fun t => scale * t + shift)
  toSolver x := .ok (x.map fun x => (x - shift) / scale)
  pullGradient _ g := .ok (g.map fun g => scale * g)

def splitChange [Scalar α] : Change α where
  className := "Split"
  userDimension := 1
  solverDimension := 2
  toUser t := .ok [t.getD 0 0 + t.getD 1 0]
  toSolver x := do
    let part := (← coordinate x 0) / Scalar.ofNat 2
    return [part, part]
  pullGradient _ g := .ok [g.getD 0 0, g.getD 0 0]

end Descent.Sample
