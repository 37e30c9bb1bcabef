import Descent.Objective.Evaluate

namespace Descent.Registry

variable {α : Type} [Scalar α]

omit [Scalar α] in
def argumentRange (m : Memory α) (box : List (Interval α)) (v : Variable α) :
    Except (Fault α) (List (Interval α)) :=
  if v.isConstant then .ok ((m.load v.storage).map Interval.point)
  else if v.change.isSome then .error .intervalChanged
  else .ok ((box.drop v.globalIndex).take v.userDimension)

def addRange (r : Registry α) (m : Memory α) (box : List (Interval α)) (total : Interval α)
    (b : Binding α) : Except (Fault α) (Interval α) := do
  let arguments ← (r.arguments b).mapM (argumentRange m box)
  total.add (← b.term.range arguments)

def totalRange (r : Registry α) (m : Memory α) (box : List (Interval α)) :
    Except (Fault α) (Interval α) :=
  r.terms.foldlM (r.addRange m box) (.point r.constant)

def range (r : Registry α) (m : Memory α) (box : List (Interval α)) :
    Evaluation α (Interval α) := do
  if box.length ≠ r.scalars then throw (.intervalPointSize box.length r.scalars)
  countValue
  let total ← r.totalRange m box
  return total

end Descent.Registry
