import Descent.Binary64

namespace Descent

namespace Quotient

def exponent (v : Quotient) : Int :=
  let guess : Int := (Nat.log2 v.num : Int) - Nat.log2 v.den
  let power := scaled 1 2 guess
  if v.num * power.den < v.den * power.num then guess - 1 else guess

def toBinary (v : Quotient) : Quotient :=
  if v.num = 0 then v
  else
    let place := v.exponent - 52
    scaled (v.scale 2 (-place)).round 2 place

end Quotient

namespace Partition

def workers (threads terms : Nat) : Nat := max 1 (min threads terms)

/-- The rounded product of `k` and the rounded quotient of the terms by the workers, cut to a whole
number. -/
def interiorBound (terms workers k : Nat) : Nat :=
  let step := (Quotient.mk terms workers).toBinary
  (Quotient.mk (k * step.num) step.den).toBinary.floor

def bound (terms workers k : Nat) : Nat :=
  if k = workers then terms else interiorBound terms workers k

def chunks (terms workers : Nat) : List (Nat × Nat) :=
  (List.range workers).map fun k => (bound terms workers k, bound terms workers (k + 1))

theorem length_chunks (terms workers : Nat) : (chunks terms workers).length = workers := by
  simp [chunks]

end Partition

end Descent
