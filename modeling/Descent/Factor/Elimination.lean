import Descent.Sparse

namespace Descent

structure PivotFactor (α : Type) (n : Nat) where
  lower : Dense α n n
  upper : Dense α n n

namespace PivotFactor

variable {α : Type} [Scalar α] {n : Nat}

def subtractProduct (a b c : α) : α :=
  if Scalar.same b 0 || Scalar.same c 0 then a else a - b * c

def eliminate? (f : PivotFactor α n) (k : Fin n) : Option (PivotFactor α n) :=
  let pivot := f.upper.get k k
  if 0 < pivot then
    let multiplier (i : Fin n) : α :=
      if Scalar.same (f.upper.get i k) 0 then 0 else f.upper.get i k / pivot
    some {
      lower := .ofFn fun i j => if j = k ∧ k < i then multiplier i else f.lower.get i j
      upper := .ofFn fun i j =>
        if i ≤ k then f.upper.get i j
        else if j = k then 0
        else subtractProduct (f.upper.get i j) (multiplier i) (f.upper.get k j) }
  else none

def ofPositive? (a : Dense α n n) : Option (PivotFactor α n) :=
  (List.finRange n).foldlM eliminate? ⟨Dense.identity, a⟩

def solve (f : PivotFactor α n) (b : Vector α n) : Vector α n :=
  let y := Fin.foldl n (fun (y : Vector α n) i =>
    let below := (List.finRange n).filter (· < i)
    let rest := below.foldl (fun rest j => subtractProduct rest (f.lower.get i j) (y.get j)) (b.get i)
    Vec.put y i rest) b
  Fin.foldr n (fun i (x : Vector α n) =>
    let above := (List.finRange n).filter (i < ·)
    let rest := above.foldl (fun rest j => subtractProduct rest (f.upper.get i j) (x.get j)) (y.get i)
    Vec.put x i (rest / f.upper.get i i)) y

end PivotFactor

end Descent
