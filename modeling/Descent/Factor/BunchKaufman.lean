import Descent.Factor.Blocks

/-!
# Symmetric factorization with pivot blocks

A symmetric matrix `a`, its rows and columns taken in the order `order`, is `lower * middle * lowerᵀ`
with a unit lower triangular `lower` and a block diagonal `middle` of single entries and pairs. The
pivot is chosen by partial pivoting: the diagonal entry if it is large enough beside its column,
else the diagonal entry of the row of the largest entry in that column, else both rows as a pair.
-/

namespace Descent

structure BlockFactor (α : Type) (n : Nat) where
  order : Vector (Fin n) n
  lower : Dense α n n
  middle : Dense α n n

namespace BlockFactor

variable {α : Type} [Scalar α] {n : Nat}

structure Progress (α : Type) (n : Nat) where
  rest : Dense α n n
  order : Vector (Fin n) n
  lower : Dense α n n
  middle : Dense α n n

inductive Pivot (n : Nat) where
  | zero
  | single (row : Fin n)
  | double (row : Fin n)

def largestAt? (value : Fin n → α) : List (Fin n) → Option (Fin n)
  | [] => none
  | i :: rest => some (rest.foldl (fun best j => if value best < value j then j else best) i)

/-- The share of the largest entry of its column that a diagonal entry needs to be a pivot. -/
def threshold : α := (1 + Scalar.sqrt (Scalar.ofNat 17)) / Scalar.ofNat 8

def behind (k : Fin n) : List (Fin n) := (List.finRange n).filter (k < ·)

def choosePivot (a : Dense α n n) (k : Fin n) : Pivot n :=
  let size (i j : Fin n) := Scalar.abs (a.get i j)
  match largestAt? (fun i => size i k) (behind k) with
  | none => if Scalar.same (size k k) 0 || Scalar.isNaN (size k k) then .zero else .single k
  | some r =>
      let column := size r k
      if Scalar.same (Scalar.larger (size k k) column) 0 || Scalar.isNaN (size k k) then .zero
      else if threshold * column ≤ size k k then .single k
      else
        let others := (k :: behind k).filter (· ≠ r)
        let row := others.foldl (fun largest j => Scalar.larger largest (size r j)) 0
        if threshold * column * (column / row) ≤ size k k then .single k
        else if threshold * row ≤ size r r then .single r
        else .double r

def transposition (i j k : Fin n) : Fin n := if k = i then j else if k = j then i else k

def Progress.exchange (p : Progress α n) (i j : Fin n) : Progress α n :=
  let swap := transposition i j
  { p with
    rest := .ofFn fun r c => p.rest.get (swap r) (swap c)
    order := .ofFn fun r => p.order.get (swap r)
    lower := .ofFn fun r c => p.lower.get (swap r) c }

def Progress.eliminateSingle (p : Progress α n) (k : Fin n) : Progress α n :=
  let a := p.rest
  let inverse := 1 / a.get k k
  { p with
    rest := .ofLower fun i j =>
      if k < j then a.get i j - inverse * a.get j k * a.get i k else a.get i j
    lower := .ofFn fun i j => if j = k ∧ k < i then a.get i k * inverse else p.lower.get i j
    middle := .ofFn fun i j => if i = k ∧ j = k then a.get k k else p.middle.get i j }

def Progress.eliminateDouble (p : Progress α n) (k l : Fin n) : Progress α n :=
  let a := p.rest
  let corner := a.get l k
  let second := a.get l l / corner
  let first := a.get k k / corner
  let factor := 1 / (second * first - 1) / corner
  let left (i : Fin n) := factor * (second * a.get i k - a.get i l)
  let right (i : Fin n) := factor * (first * a.get i l - a.get i k)
  { p with
    rest := .ofLower fun i j =>
      if l < j then a.get i j - a.get i k * left j - a.get i l * right j else a.get i j
    lower := .ofFn fun i j =>
      if l < i ∧ j = k then left i else if l < i ∧ j = l then right i else p.lower.get i j
    middle := .ofFn fun i j =>
      if (i = k ∨ i = l) ∧ (j = k ∨ j = l) then a.get i j else p.middle.get i j }

def Progress.keep (p : Progress α n) (k : Fin n) : Progress α n :=
  { p with middle := .ofFn fun i j => if i = k ∧ j = k then p.rest.get k k else p.middle.get i j }

def eliminateFrom (p : Progress α n) (k : Nat) : Progress α n :=
  if h : k < n then
    let column : Fin n := ⟨k, h⟩
    match choosePivot p.rest column with
    | .zero => eliminateFrom (p.keep column) (k + 1)
    | .single r => eliminateFrom ((p.exchange column r).eliminateSingle column) (k + 1)
    | .double r =>
        if pair : k + 1 < n then
          let next : Fin n := ⟨k + 1, pair⟩
          eliminateFrom ((p.exchange next r).eliminateDouble column next) (k + 2)
        else p
  else p
termination_by n - k

def ofSymmetric (a : Dense α n n) : BlockFactor α n :=
  let p := eliminateFrom ⟨a, Vector.ofFn id, Dense.zero, Dense.zero⟩ 0
  { order := p.order
    lower := .ofFn fun i j => if i = j then 1 else p.lower.get i j
    middle := p.middle }

end BlockFactor

end Descent
