import Descent.Fault

namespace Descent

structure Change (α : Type) where
  className : String
  userDimension : Nat
  solverDimension : Nat
  toUser : List α → Except (Fault α) (List α)
  toSolver : List α → Except (Fault α) (List α)
  pullGradient : (point userGradient : List α) → Except (Fault α) (List α)

end Descent
