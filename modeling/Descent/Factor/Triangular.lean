import Descent.Dense

namespace Descent.Dense

variable {α : Type} [Scalar α] {n : Nat}

def subtractProducts (start : α) (coefficient : Fin n → α) (y : Vector α n)
    (positions : List (Fin n)) : α :=
  positions.foldl (fun rest j => rest - coefficient j * y.get j) start

def forward (l : Dense α n n) (b : Vector α n) : Vector α n :=
  Fin.foldl n (fun y i =>
    let below := (List.finRange n).filter (· < i)
    Vec.put y i (subtractProducts (b.get i) (l.get i) y below / l.get i i)) (Vector.replicate n 0)

def backward (l : Dense α n n) (z : Vector α n) : Vector α n :=
  Fin.foldr n (fun i x =>
    let above := (List.finRange n).filter (i < ·)
    Vec.put x i (subtractProducts (z.get i) (fun j => l.get j i) x above / l.get i i))
    (Vector.replicate n 0)

end Descent.Dense
