import Descent.Vec

namespace Descent

abbrev Dense (α : Type) (m n : Nat) := Vector (Vector α n) m

namespace Dense

variable {α : Type} {m n : Nat}

def ofFn (entry : Fin m → Fin n → α) : Dense α m n := Vector.ofFn fun i => Vector.ofFn (entry i)

def get (a : Dense α m n) (i : Fin m) (j : Fin n) : α := (Vector.get a i).get j

@[simp] theorem get_ofFn (entry : Fin m → Fin n → α) (i : Fin m) (j : Fin n) :
    (ofFn entry).get i j = entry i j := by
  simp [get, ofFn, Vec.get_eq_getElem]

def ofLower (entry : Fin n → Fin n → α) : Dense α n n :=
  ofFn fun i j => if j ≤ i then entry i j else entry j i

def toLists (a : Dense α m n) : List (List α) := a.toList.map Vector.toList

variable [Scalar α]

def ofLists (rows : List (List α)) : Dense α m n :=
  ofFn fun i j => ((rows[i.val]?.getD [])[j.val]?).getD 0

def zero : Dense α m n := ofFn fun _ _ => 0

def identity : Dense α n n := ofFn fun i j => if i = j then 1 else 0

def symmetrized (a : Dense α n n) : Dense α n n :=
  ofFn fun i j => Scalar.ratio 1 2 * (a.get i j + a.get j i)

def diagonal (a : Dense α n n) : List α := (List.finRange n).map fun i => a.get i i

def shifted (a : Dense α n n) (shift : α) : Dense α n n :=
  ofFn fun i j => a.get i j + shift * (identity (n := n)).get i j

def maxAbs (a : Dense α m n) : α :=
  a.foldl (fun largest row => row.foldl
    (fun largest b => Scalar.supremum largest (Scalar.abs b)) largest) 0

def isFinite (a : Dense α m n) : Bool := a.all fun row => row.all Scalar.isFinite

def addBlock (a : Dense α m n) (top left : Nat) (block : List (List α)) : Dense α m n :=
  ofFn fun i j =>
    if i.val < top ∨ j.val < left then a.get i j
    else match block[i.val - top]? >>= (·[j.val - left]?) with
      | some b => a.get i j + b
      | none => a.get i j

end Dense

end Descent
