import Descent.Config

namespace Descent

inductive ExitCondition where
  | gradientTolerance
  | functionTolerance
  | argumentTolerance
  | noConvergence
  | functionNaN
  | functionInfinity
  | userAbort
  | internalError
  | na
  deriving DecidableEq

namespace ExitCondition

def name : ExitCondition → String
  | gradientTolerance => "GRADIENT_TOLERANCE"
  | functionTolerance => "FUNCTION_TOLERANCE"
  | argumentTolerance => "ARGUMENT_TOLERANCE"
  | noConvergence => "NO_CONVERGENCE"
  | functionNaN => "FUNCTION_NAN"
  | functionInfinity => "FUNCTION_INFINITY"
  | userAbort => "USER_ABORT"
  | internalError => "INTERNAL_ERROR"
  | na => "NA"

def text : ExitCondition → String
  | gradientTolerance => "gradient_tolerance"
  | functionTolerance => "function_tolerance"
  | argumentTolerance => "argument_tolerance"
  | noConvergence => "no_convergence"
  | functionNaN => "function_nan"
  | functionInfinity => "function_infinity"
  | userAbort => "user_abort"
  | internalError => "internal_error"
  | na => "na"

def all : List ExitCondition :=
  [gradientTolerance, functionTolerance, argumentTolerance, noConvergence, functionNaN,
    functionInfinity, userAbort, internalError, na]

def ofName? (name : String) : Option ExitCondition := all.find? (·.name = name)

def isSuccess : ExitCondition → Bool
  | gradientTolerance | functionTolerance | argumentTolerance => true
  | _ => false

end ExitCondition

structure Standing (α : Type) where
  value : α
  gradientNorm : α
  startNorm : α
  pointNorm : α
  stepNorm : Option α
  before : Option α
  exhausted : Bool

namespace Config

variable {α : Type} [Scalar α]

def smallGradient (c : Config α) (s : Standing α) : Bool :=
  Scalar.same s.startNorm 0 || decide (s.gradientNorm < c.gradientTolerance * s.startNorm)

def smallImprovement (c : Config α) (s : Standing α) : Bool :=
  let tolerance := c.functionImprovementTolerance
  s.before.any fun before =>
    decide (Scalar.abs (s.value - before) < tolerance * (Scalar.abs s.value + tolerance))

def shortStep (c : Config α) (s : Standing α) : Bool :=
  let tolerance := c.argumentImprovementTolerance
  s.stepNorm.any fun step => decide (step < tolerance * (s.pointNorm + tolerance))

def exit? (c : Config α) (s : Standing α) : Option ExitCondition :=
  if Scalar.isNaN s.value then some .functionNaN
  else if Scalar.isInfinite s.value then some .functionInfinity
  else if c.smallGradient s then some .gradientTolerance
  else if c.smallImprovement s then some .functionTolerance
  else if c.shortStep s then some .argumentTolerance
  else if s.exhausted then some .noConvergence
  else none

end Config

end Descent
