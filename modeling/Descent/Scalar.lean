/-!
# Scalars

Every computation of the library is written over a type with the operations of `Scalar`. The
class states no law, so binary floating point, with its rounding, infinities and NaN, is an
instance just as an exact ordered field is; what holds only in exact arithmetic is a theorem about
the exact instance.
-/

namespace Descent

class Scalar (α : Type) extends Zero α, One α, Add α, Sub α, Mul α, Div α, Neg α, LT α, LE α where
  decideLT : (a b : α) → Decidable (a < b)
  decideLE : (a b : α) → Decidable (a ≤ b)
  ofNat : Nat → α
  abs : α → α
  sqrt : α → α
  isNaN : α → Bool
  isInfinite : α → Bool

class Elementary (α : Type) extends Scalar α where
  exp : α → α
  log : α → α
  sin : α → α
  cos : α → α
  atan2 : (y x : α) → α
  power : α → Nat → α

namespace Scalar

variable {α : Type} [Scalar α]

instance (a b : α) : Decidable (a < b) := decideLT a b

instance (a b : α) : Decidable (a ≤ b) := decideLE a b

def ratio (part whole : Nat) : α := ofNat part / ofNat whole

def isFinite (a : α) : Bool := !isNaN a && !isInfinite a

/-- Equal in the order: neither number is above the other. Zeros of both signs are equal, and NaN
is equal to nothing. -/
def same (a b : α) : Bool := decide (a ≤ b) && decide (b ≤ a)

def larger (a b : α) : α := if a < b then b else a

def smaller (a b : α) : α := if b < a then b else a

def supremum (a b : α) : α := if isNaN a then a else if isNaN b then b else larger a b

def infimum (a b : α) : α := if isNaN a then a else if isNaN b then b else smaller a b

end Scalar

instance : Scalar Float where
  decideLT := Float.decLt
  decideLE := Float.decLe
  ofNat := Float.ofNat
  abs := Float.abs
  sqrt := Float.sqrt
  isNaN := Float.isNaN
  isInfinite := Float.isInf

instance : Elementary Float where
  exp := Float.exp
  log := Float.log
  sin := Float.sin
  cos := Float.cos
  atan2 := Float.atan2
  power := fun a n => Float.pow a (Float.ofNat n)

end Descent
