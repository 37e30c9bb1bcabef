import Descent.Fault
import Descent.Scalar

namespace Descent

structure Interval (α : Type) where
  lower : α
  upper : α

namespace Interval

variable {α : Type} [Scalar α]

def make? (lower upper : α) : Except (Fault α) (Interval α) :=
  if upper < lower then .error (.emptyInterval lower upper) else .ok ⟨lower, upper⟩

def point (a : α) : Interval α := ⟨a, a⟩

def width (i : Interval α) : α := i.upper - i.lower

def contains (i : Interval α) (a : α) : Bool := decide (i.lower ≤ a) && decide (a ≤ i.upper)

def add (i j : Interval α) : Except (Fault α) (Interval α) :=
  make? (i.lower + j.lower) (i.upper + j.upper)

def neg (i : Interval α) : Except (Fault α) (Interval α) := make? (-i.upper) (-i.lower)

def sub (i j : Interval α) : Except (Fault α) (Interval α) :=
  make? (i.lower - j.upper) (i.upper - j.lower)

def mul (i j : Interval α) : Except (Fault α) (Interval α) :=
  let p := i.lower * j.lower
  let q := i.lower * j.upper
  let r := i.upper * j.lower
  let s := i.upper * j.upper
  make? (Scalar.smaller (Scalar.smaller (Scalar.smaller p q) r) s)
    (Scalar.larger (Scalar.larger (Scalar.larger p q) r) s)

def square (i : Interval α) : Except (Fault α) (Interval α) :=
  if 0 ≤ i.lower then make? (i.lower * i.lower) (i.upper * i.upper)
  else if i.upper ≤ 0 then make? (i.upper * i.upper) (i.lower * i.lower)
  else make? 0 (Scalar.larger (i.lower * i.lower) (i.upper * i.upper))

end Interval

end Descent
