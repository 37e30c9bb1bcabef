import Descent.Fault
import Descent.Scalar

namespace Descent

inductive SparsityMode where
  | dense
  | sparse
  | auto
  deriving DecidableEq

/-- How the Newton solver modifies an indefinite Hessian: by raising the eigenvalues of the diagonal
blocks of a factorization, or by shifting the diagonal until a factorization succeeds. -/
inductive FactorizationMethod where
  | blocks
  | shifts
  deriving DecidableEq

inductive Method where
  | newton
  | lbfgs
  | nelderMead
  | patternSearch
  | global
  deriving DecidableEq

inductive Choice (κ : Type) where
  | known (member : κ)
  | text (text : String)

def Choice.known? {κ : Type} : Choice κ → Except String κ
  | .known member => .ok member
  | .text words => .error words

namespace SparsityMode

def text : SparsityMode → String
  | dense => "dense"
  | sparse => "sparse"
  | auto => "auto"

def name : SparsityMode → String
  | dense => "DENSE"
  | sparse => "SPARSE"
  | auto => "AUTO"

def all : List SparsityMode := [dense, sparse, auto]

def ofText (text : String) : Choice SparsityMode :=
  match all.find? (·.text = text) with
  | some mode => .known mode
  | none => .text text

end SparsityMode

namespace FactorizationMethod

def text : FactorizationMethod → String
  | blocks => "bkp"
  | shifts => "iterative"

def name : FactorizationMethod → String
  | blocks => "BKP"
  | shifts => "ITERATIVE"

def all : List FactorizationMethod := [blocks, shifts]

def ofText (text : String) : Choice FactorizationMethod :=
  match all.find? (·.text = text) with
  | some method => .known method
  | none => .text text

end FactorizationMethod

namespace Method

def text : Method → String
  | newton => "newton"
  | lbfgs => "lbfgs"
  | nelderMead => "nelder_mead"
  | patternSearch => "pattern_search"
  | global => "global"

def name : Method → String
  | newton => "NEWTON"
  | lbfgs => "LBFGS"
  | nelderMead => "NELDER_MEAD"
  | patternSearch => "PATTERN_SEARCH"
  | global => "GLOBAL"

def all : List Method := [newton, lbfgs, nelderMead, patternSearch, global]

def ofText? (text : String) : Option Method := all.find? (·.text = text)

def ofName? (name : String) : Option Method := all.find? (·.name = name)

end Method

structure Config (α : Type) where
  maximumIterations : Int
  gradientTolerance : α
  functionImprovementTolerance : α
  argumentImprovementTolerance : α
  historySize : Nat
  restartTolerance : α
  sufficientDecrease : α
  contraction : α
  startStep : α
  sparsityMode : SparsityMode
  factorizationMethod : FactorizationMethod
  autoSparseMinSize : Int
  autoSparseMaxDensity : α

structure Settings (α : Type) where
  maximumIterations : Int
  gradientTolerance : α
  functionImprovementTolerance : α
  argumentImprovementTolerance : α
  historySize : Int
  restartTolerance : α
  sufficientDecrease : α
  contraction : α
  startStep : α
  sparsityMode : Choice SparsityMode
  factorizationMethod : Choice FactorizationMethod
  autoSparseMinSize : Int
  autoSparseMaxDensity : α

inductive Setting (α : Type) where
  | maximumIterations (value : Int)
  | gradientTolerance (value : α)
  | functionImprovementTolerance (value : α)
  | argumentImprovementTolerance (value : α)
  | historySize (value : Int)
  | restartTolerance (value : α)
  | sufficientDecrease (value : α)
  | contraction (value : α)
  | startStep (value : α)
  | sparsityMode (value : Choice SparsityMode)
  | factorizationMethod (value : Choice FactorizationMethod)
  | autoSparseMinSize (value : Int)
  | autoSparseMaxDensity (value : α)
  | unknown (name : String)

namespace Settings

variable {α : Type} [Scalar α]

def default : Settings α where
  maximumIterations := 100
  gradientTolerance := Scalar.ratio 1 1000000000000
  functionImprovementTolerance := Scalar.ratio 1 1000000000000
  argumentImprovementTolerance := Scalar.ratio 1 1000000000000
  historySize := 10
  restartTolerance := Scalar.ratio 1 1000000
  sufficientDecrease := Scalar.ratio 1 10000
  contraction := Scalar.ratio 1 2
  startStep := 1
  sparsityMode := .known .auto
  factorizationMethod := .known .blocks
  autoSparseMinSize := 100
  autoSparseMaxDensity := Scalar.ratio 1 10

omit [Scalar α] in
def set (s : Settings α) : Setting α → Except (Fault α) (Settings α)
  | .maximumIterations value => .ok { s with maximumIterations := value }
  | .gradientTolerance value => .ok { s with gradientTolerance := value }
  | .functionImprovementTolerance value => .ok { s with functionImprovementTolerance := value }
  | .argumentImprovementTolerance value => .ok { s with argumentImprovementTolerance := value }
  | .historySize value => .ok { s with historySize := value }
  | .restartTolerance value => .ok { s with restartTolerance := value }
  | .sufficientDecrease value => .ok { s with sufficientDecrease := value }
  | .contraction value => .ok { s with contraction := value }
  | .startStep value => .ok { s with startStep := value }
  | .sparsityMode value => .ok { s with sparsityMode := value }
  | .factorizationMethod value => .ok { s with factorizationMethod := value }
  | .autoSparseMinSize value => .ok { s with autoSparseMinSize := value }
  | .autoSparseMaxDensity value => .ok { s with autoSparseMaxDensity := value }
  | .unknown name => .error (.unknownSetting name)

def checkTolerance (setting : String) (value : α) : Except (Fault α) Unit :=
  if value < 0 then .error (.negativeTolerance setting value) else .ok ()

def checkFraction (fault : α → Fault α) (value : α) : Except (Fault α) Unit :=
  if 0 < value ∧ value < 1 then .ok () else .error (fault value)

def check (s : Settings α) : Except (Fault α) (Config α) := do
  if s.maximumIterations < 0 then throw (.iterationLimit s.maximumIterations)
  checkTolerance "gradient_tolerance" s.gradientTolerance
  checkTolerance "function_improvement_tolerance" s.functionImprovementTolerance
  checkTolerance "argument_improvement_tolerance" s.argumentImprovementTolerance
  checkTolerance "lbfgs_restart_tolerance" s.restartTolerance
  if s.historySize ≤ 0 then throw (.historySize s.historySize)
  checkFraction .sufficientDecrease s.sufficientDecrease
  checkFraction .contraction s.contraction
  if s.startStep ≤ 0 then throw (.startStep s.startStep)
  let sparsityMode ← s.sparsityMode.known?.mapError .sparsityMode
  let factorizationMethod ← s.factorizationMethod.known?.mapError .factorizationMethod
  return {
    maximumIterations := s.maximumIterations
    gradientTolerance := s.gradientTolerance
    functionImprovementTolerance := s.functionImprovementTolerance
    argumentImprovementTolerance := s.argumentImprovementTolerance
    historySize := s.historySize.toNat
    restartTolerance := s.restartTolerance
    sufficientDecrease := s.sufficientDecrease
    contraction := s.contraction
    startStep := s.startStep
    sparsityMode
    factorizationMethod
    autoSparseMinSize := s.autoSparseMinSize
    autoSparseMaxDensity := s.autoSparseMaxDensity }

end Settings

namespace Config

variable {α : Type} [Scalar α]

omit [Scalar α] in
def toSettings (c : Config α) : Settings α where
  maximumIterations := c.maximumIterations
  gradientTolerance := c.gradientTolerance
  functionImprovementTolerance := c.functionImprovementTolerance
  argumentImprovementTolerance := c.argumentImprovementTolerance
  historySize := c.historySize
  restartTolerance := c.restartTolerance
  sufficientDecrease := c.sufficientDecrease
  contraction := c.contraction
  startStep := c.startStep
  sparsityMode := .known c.sparsityMode
  factorizationMethod := .known c.factorizationMethod
  autoSparseMinSize := c.autoSparseMinSize
  autoSparseMaxDensity := c.autoSparseMaxDensity

/-- The configuration with the given settings changed, checked again as a whole. -/
def override (c : Config α) (changes : List (Setting α)) : Except (Fault α) (Config α) := do
  if changes.isEmpty then return c
  let settings ← changes.foldlM Settings.set c.toSettings
  settings.check

def ofSettings (changes : List (Setting α)) : Except (Fault α) (Config α) := do
  let settings ← changes.foldlM Settings.set Settings.default
  settings.check

def describe [Numeral α] (c : Config α) : String :=
  let member (enumeration name text : String) :=
    "<" ++ enumeration ++ "." ++ name ++ ": '" ++ text ++ "'>"
  let fields := [
    ("maximum_iterations", toString c.maximumIterations),
    ("gradient_tolerance", Numeral.write c.gradientTolerance),
    ("function_improvement_tolerance", Numeral.write c.functionImprovementTolerance),
    ("argument_improvement_tolerance", Numeral.write c.argumentImprovementTolerance),
    ("lbfgs_history_size", toString c.historySize),
    ("lbfgs_restart_tolerance", Numeral.write c.restartTolerance),
    ("line_search_c", Numeral.write c.sufficientDecrease),
    ("line_search_rho", Numeral.write c.contraction),
    ("start_alpha", Numeral.write c.startStep),
    ("sparsity_mode", member "SparsityMode" c.sparsityMode.name c.sparsityMode.text),
    ("factorization_method",
      member "FactorizationMethod" c.factorizationMethod.name c.factorizationMethod.text),
    ("auto_sparse_min_size", toString c.autoSparseMinSize),
    ("auto_sparse_max_density", Numeral.write c.autoSparseMaxDensity),
    ("log_function", "None"),
    ("callback_function", "None")]
  "SolverConfig(" ++ ", ".intercalate (fields.map fun (name, value) => name ++ "=" ++ value) ++ ")"

end Config

end Descent
