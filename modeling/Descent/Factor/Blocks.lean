import Descent.Dense

namespace Descent

inductive Block (n : Nat) where
  | single (i : Fin n)
  | double (i j : Fin n)
  deriving DecidableEq

namespace Block

variable {α : Type} [Scalar α] {n : Nat}

def scanFrom (d : Dense α n n) (i : Nat) : List (Block n) :=
  if pair : i + 1 < n then
    if Scalar.same (d.get ⟨i + 1, pair⟩ ⟨i, by omega⟩) 0 then
      single ⟨i, by omega⟩ :: scanFrom d (i + 1)
    else double ⟨i, by omega⟩ ⟨i + 1, pair⟩ :: scanFrom d (i + 2)
  else if last : i < n then [single ⟨i, last⟩]
  else []
termination_by n - i

def scan (d : Dense α n n) : List (Block n) := scanFrom d 0

end Block

structure Rotation (α : Type) where
  first : α
  second : α
  cosine : α
  sine : α

namespace Rotation

variable {α : Type} [Scalar α]

def hypotenuse (a b : α) : α :=
  if b < a then a * Scalar.sqrt (1 + b / a * (b / a))
  else if a < b then b * Scalar.sqrt (1 + a / b * (a / b))
  else b * Scalar.sqrt (Scalar.ofNat 2)

/-- The eigenvalues of `[[a, b], [b, c]]`, which are `root` apart. The one of larger size comes first; the other
is computed from the determinant, so that it loses no digits. -/
def eigenvalues (a b c root : α) : α × α :=
  let half : α := Scalar.ratio 1 2
  let sum := a + c
  let (large, small) := if Scalar.abs c < Scalar.abs a then (a, c) else (c, a)
  let first :=
    if sum < 0 then half * (sum - root)
    else if 0 < sum then half * (sum + root)
    else half * root
  let second :=
    if sum < 0 ∨ 0 < sum then large / first * small - b / first * b else -(half * root)
  (first, second)

def unitNormal (offset double : α) : α × α :=
  if Scalar.abs double < Scalar.abs offset then
    let cotangent := -double / offset
    let sine := 1 / Scalar.sqrt (1 + cotangent * cotangent)
    (cotangent * sine, sine)
  else if Scalar.same (Scalar.abs double) 0 then (1, 0)
  else
    let tangent := -offset / double
    let cosine := 1 / Scalar.sqrt (1 + tangent * tangent)
    (cosine, tangent * cosine)

def ofModerate (a b c : α) : Rotation α :=
  let difference := a - c
  let double := b + b
  let root := hypotenuse (Scalar.abs difference) (Scalar.abs double)
  let values := eigenvalues a b c root
  let negative := decide (a + c < 0)
  let upward := decide (0 ≤ difference)
  let normal := unitNormal (if upward then difference + root else difference - root) double
  if negative == !upward then ⟨values.1, values.2, -normal.2, normal.1⟩
  else ⟨values.1, values.2, normal.1, normal.2⟩

def smallestNormal : α := Scalar.ratio 1 (Nat.pow 2 1022)

def leastModerate : α := Scalar.ratio 1 (Nat.pow 2 485)

def largestModerate : α := 1 / Scalar.sqrt (Scalar.sqrt smallestNormal)

/-- Diagonalizes `[[a, b], [b, c]]` through a block that is scaled to entries of moderate size. The
eigenvalues scale with the block, the eigenvectors stay. -/
def ofSymmetric (a b c : α) : Rotation α :=
  let size := Scalar.larger (Scalar.larger (Scalar.abs a) (Scalar.abs b)) (Scalar.abs c)
  let scaled (bound : α) : Rotation α :=
    let factor := bound / size
    let inverse := 1 / factor
    let r := ofModerate (a * factor) (b * factor) (c * factor)
    { r with first := r.first * inverse, second := r.second * inverse }
  if 0 < size ∧ size < leastModerate then scaled leastModerate
  else if largestModerate < size then scaled largestModerate
  else ofModerate a b c

end Rotation

end Descent
