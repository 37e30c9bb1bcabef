import Descent.Factor.Triangular

namespace Descent.Dense

variable {α : Type} [Scalar α] {n : Nat}

def choleskyRest (a l : Dense α n n) (i j : Fin n) : α :=
  ((List.finRange n).filter (· < j)).foldl (fun rest k => rest - l.get i k * l.get j k) (a.get i j)

def choleskyColumn? (a l : Dense α n n) (j : Fin n) : Option (Dense α n n) :=
  let pivot := choleskyRest a l j j
  if pivot ≤ 0 then none
  else
    let root := Scalar.sqrt pivot
    some (ofFn fun i k =>
      if k = j then if i = j then root else if j < i then choleskyRest a l i j / root else 0
      else l.get i k)

def cholesky? (a : Dense α n n) : Option (Dense α n n) :=
  (List.finRange n).foldlM (choleskyColumn? a) zero

end Descent.Dense
