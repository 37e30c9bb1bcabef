import Descent.Scalar

namespace Descent.Vec

variable {α : Type} [Scalar α] {n : Nat}

def dot (x y : Vector α n) : α := (Vector.zipWith (· * ·) x y).foldl (· + ·) 0

def norm (x : Vector α n) : α := Scalar.sqrt (dot x x)

def maxAbs (x : Vector α n) : α :=
  x.foldl (fun largest a => Scalar.supremum largest (Scalar.abs a)) 0

def same (x y : Vector α n) : Bool := (Vector.zipWith Scalar.same x y).all id

omit [Scalar α] in
theorem get_eq_getElem (x : Vector α n) (i : Fin n) : x.get i = x[i.val] := rfl

omit [Scalar α] in
def put (x : Vector α n) (i : Fin n) (a : α) : Vector α n := x.set i.val a i.isLt

omit [Scalar α] in
theorem get_put (x : Vector α n) (i j : Fin n) (a : α) :
    (put x i a).get j = if i = j then a else x.get j := by
  simp [put, get_eq_getElem, Vector.getElem_set, Fin.ext_iff]

def gather (order : Vector (Fin n) n) (x : Vector α n) : Vector α n :=
  order.map x.get

omit [Scalar α] in
@[simp] theorem get_gather (order : Vector (Fin n) n) (x : Vector α n) (i : Fin n) :
    (gather order x).get i = x.get (order.get i) := by
  simp [gather, get_eq_getElem]

def scatter (order : Vector (Fin n) n) (x : Vector α n) : Vector α n :=
  (List.finRange n).foldl (fun out i => put out (order.get i) (x.get i))
    (Vector.replicate n 0)

end Descent.Vec
