import Descent.Objective.Compose

namespace Descent

inductive Mutation (α : Type) where
  | addVariable (h : Handle) (dimension : Int) (change : Option (Change α))
  | setConstant (h : Handle) (isConstant : Bool)
  | addTerm (t : Objective.Candidate α) (handles : List Handle)
  | add (summand : Objective.Summand α)
  | setThreads (count : Int)
  | enableHessian (enabled : Bool)

def Mutation.edit {α : Type} [Scalar α] : Mutation α → Edit α Unit
  | addVariable h dimension change => Objective.addVariable h dimension change
  | setConstant h isConstant => Objective.setConstant h isConstant
  | addTerm t handles => Objective.addCandidate t handles
  | add summand => Objective.add summand
  | setThreads count => Objective.setThreads count
  | enableHessian enabled => Objective.enableHessian enabled

end Descent
