import Descent.Dense

namespace Descent

structure Triplet (α : Type) where
  row : Nat
  column : Nat
  value : α

structure Sparse (α : Type) (m n : Nat) where
  rows : Vector (List (Fin n × α)) m

namespace Sparse

variable {α : Type} [Scalar α] {m n : Nat}

def addToRow (column : Fin n) (value : α) : List (Fin n × α) → List (Fin n × α)
  | [] => [(column, value)]
  | (c, v) :: row =>
      if column < c then (column, value) :: (c, v) :: row
      else if column = c then (c, v + value) :: row
      else (c, v) :: addToRow column value row

def empty : Sparse α m n := ⟨Vector.replicate m []⟩

def add (a : Sparse α m n) (row : Fin m) (column : Fin n) (value : α) : Sparse α m n :=
  ⟨Vec.put a.rows row (addToRow column value (a.rows.get row))⟩

def ofTriplets (triplets : List (Triplet α)) : Sparse α m n :=
  triplets.foldl (fun a t =>
    if h : t.row < m ∧ t.column < n then a.add ⟨t.row, h.1⟩ ⟨t.column, h.2⟩ t.value else a) empty

def ofDense (a : Dense α m n) : Sparse α m n :=
  ⟨Vector.ofFn fun i => (List.finRange n).filterMap fun j =>
    if Scalar.same (a.get i j) 0 then none else some (j, a.get i j)⟩

def get (a : Sparse α m n) (i : Fin m) (j : Fin n) : α :=
  match (a.rows.get i).find? (·.1 = j) with
  | some (_, v) => v
  | none => 0

def toTriplets (a : Sparse α m n) : List (Triplet α) :=
  (List.finRange m).flatMap fun i => (a.rows.get i).map fun (j, v) => ⟨i, j, v⟩

def toDense (a : Sparse α m n) : Dense α m n := Dense.ofFn a.get

end Sparse

inductive Hessian (α : Type) (n : Nat) where
  | dense (matrix : Dense α n n)
  | sparse (matrix : Sparse α n n)

end Descent
