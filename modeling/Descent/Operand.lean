import Descent.Interval

namespace Descent

inductive Operation where
  | add
  | sub
  | mul
deriving DecidableEq, Repr

namespace Operation

variable {α : Type} [Scalar α]

def ofNumbers (operation : Operation) (a b : α) : α :=
  match operation with
  | add => a + b
  | sub => a - b
  | mul => a * b

def ofIntervals (operation : Operation) (i j : Interval α) : Except (Fault α) (Interval α) :=
  match operation with
  | add => i.add j
  | sub => i.sub j
  | mul => i.mul j

def ofNumberFirst (operation : Operation) (a : α) (j : Interval α) : Except (Fault α) (Interval α) :=
  match operation with
  | add => j.add (.point a)
  | sub => (Interval.point a).sub j
  | mul => j.mul (.point a)

end Operation

inductive Operand (α : Type) where
  | number (value : α)
  | interval (value : Interval α)

namespace Operand

variable {α : Type} [Scalar α]

omit [Scalar α] in
def toInterval : Operand α → Interval α
  | number a => .point a
  | interval i => i

def combine (operation : Operation) (a b : Operand α) : Except (Fault α) (Operand α) :=
  match a, b with
  | number a, number b => .ok (number (operation.ofNumbers a b))
  | number a, interval j => interval <$> operation.ofNumberFirst a j
  | interval i, b => interval <$> operation.ofIntervals i b.toInterval

def neg : Operand α → Except (Fault α) (Operand α)
  | number a => .ok (number (-a))
  | interval i => interval <$> i.neg

def square (a : Operand α) : Except (Fault α) (Operand α) := interval <$> a.toInterval.square

end Operand

end Descent
