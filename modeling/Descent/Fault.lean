import Descent.Numeral
import Descent.Text.Quoted

namespace Descent

inductive Lookup where
  | globalIndex
  | constancy
  | setConstant

def Lookup.label : Lookup → String
  | globalIndex => "get_variable_global_index"
  | constancy => "is_constant"
  | setConstant => "set_constant"

inductive StreamPart where
  | header
  | version
  | typeFormat
  | numberOfTerms
  | numberOfVariables
  | numberOfScalars
  | constant
  | dimensions
  | constantFlags
  | point
  | termName
  | termArity
  | termVariables
  | termPayload

def StreamPart.label : StreamPart → String
  | header => "header"
  | version => "version"
  | typeFormat => "type format"
  | numberOfTerms => "number_of_terms"
  | numberOfVariables => "number_of_variables"
  | numberOfScalars => "number_of_scalars"
  | constant => "constant"
  | dimensions => "variable dimensions"
  | constantFlags => "constant flags"
  | point => "point"
  | termName => "term name"
  | termArity => "term arity"
  | termVariables => "term variables"
  | termPayload => "term payload"

inductive Fault (α : Type) where
  | notStorage (typeName : String)
  | unfitStorage (scalarType : String) (shape : List Nat)
  | dimensionNotPositive (dimension : Int)
  | storageSize (size : Nat) (dimension : Int)
  | dimensionChanged (registered : Nat) (dimension : Int)
  | changeUnfit
  | userDimensionChanged
  | solverDimensionChanged
  | notRegistered (lookup : Lookup)
  | notTerm (typeName : String)
  | arity (given declared : Nat)
  | argumentDimension (argument registered : Nat) (declared : Int)
  | threadCount (count : Int)
  | newThreadCount (count : Int)
  | unsupportedSummand (typeName : String)
  | mergeChanged
  | mergeDimensions
  | hessianDisabled
  | hessianChanged
  | intervalChanged
  | streamChanged
  | pointSize (given expected : Nat)
  | intervalPointSize (given expected : Nat)
  | broadcast (given expected : List Nat)
  | noAxis
  | notEntries
  | sharedCells
  | notResizable (typeName : String)
  | wholeNaN
  | wholeInfinity
  | beyondMatrix (axis index size : Nat)
  | noArgument
  | noComponent (index size : Nat)
  | emptyInterval (lower upper : α)
  | noIntervals (className : String)
  | severalLines (className : String)
  | reading (part : StreamPart)
  | notStream
  | streamVersion (version : Nat)
  | foreignFormat
  | variableCount
  | dimensionSum
  | scalarCount
  | termVariables (name : String)
  | unknownTerm (name : String)
  | notTermClass (typeName : String)
  | notNumber (text : String)
  | iterationLimit (value : Int)
  | negativeTolerance (setting : String) (value : α)
  | historySize (value : Int)
  | sufficientDecrease (value : α)
  | contraction (value : α)
  | startStep (value : α)
  | sparsityMode (text : String)
  | factorizationMethod (text : String)
  | unknownSetting (name : String)
  | unknownMethod (text : String)
  | methodUnavailable (name : String)
  | notSquare (rows columns : Nat)
  | gradientSize (rows columns size : Nat)
  | notFinite
  | noShift
  | divisionByZero
  | overflow
  | domain
  | reported (category message : String)

namespace Fault

variable {α : Type}

def category : Fault α → String
  | notStorage _ | unfitStorage _ _ | notTerm _ | unsupportedSummand _ | notTermClass _
  | unknownSetting _ | notEntries => "TypeError"
  | notResizable _ => "AttributeError"
  | storageSize _ _ | dimensionChanged _ _ | mergeDimensions => "DimensionMismatch"
  | changeUnfit | userDimensionChanged | solverDimensionChanged => "ReparametrizationMismatch"
  | notRegistered _ => "VariableNotFound"
  | arity _ _ => "ArityMismatch"
  | argumentDimension _ _ _ => "TermVariableDimensionMismatch"
  | mergeChanged | intervalChanged | streamChanged => "CapabilityError"
  | hessianDisabled => "HessianDisabled"
  | hessianChanged => "ReparametrizationHessianUnsupported"
  | noArgument | noComponent _ _ | noAxis => "IndexError"
  | noIntervals _ | methodUnavailable _ => "NotImplementedError"
  | reading _ | notStream | streamVersion _ | foreignFormat | variableCount | dimensionSum
  | scalarCount | termVariables _ | unknownTerm _ => "StreamFormatError"
  | noShift => "LinAlgError"
  | divisionByZero => "ZeroDivisionError"
  | overflow | wholeInfinity => "OverflowError"
  | reported category _ => category
  | dimensionNotPositive _ | threadCount _ | newThreadCount _ | pointSize _ _
  | intervalPointSize _ _ | broadcast _ _ | beyondMatrix _ _ _ | emptyInterval _ _
  | severalLines _ | notNumber _ | iterationLimit _ | negativeTolerance _ _ | historySize _
  | sufficientDecrease _ | contraction _ | startStep _ | sparsityMode _ | factorizationMethod _
  | unknownMethod _ | notSquare _ _ | gradientSize _ _ _ | notFinite | domain | sharedCells
  | wholeNaN => "ValueError"

def extentsText (separator : String) : List Nat → String
  | [n] => "(" ++ toString n ++ ",)"
  | shape => "(" ++ separator.intercalate (shape.map toString) ++ ")"

def shapeText (shape : List Nat) : String := extentsText ", " shape

def message [Numeral α] : Fault α → String
  | notStorage typeName => "Variable storage must be a numpy array, got " ++ typeName
  | unfitStorage scalarType shape =>
      s!"Variable storage must be a 1-D float64 array, got {scalarType} with shape "
        ++ shapeText shape
  | dimensionNotPositive dimension => s!"Variable dimension must be positive, got {dimension}"
  | storageSize size dimension =>
      s!"Variable storage holds {size} scalars, dimension is {dimension}"
  | dimensionChanged registered dimension =>
      "Function.add_variable: dimension mismatch with previously added variable "
        ++ s!"({registered} != {dimension})."
  | changeUnfit => "Function.add_variable: dimension does not match the change of variables."
  | userDimensionChanged => "Function.add_variable: x_dimension can not change."
  | solverDimensionChanged => "Function.add_variable: t_dimension can not change."
  | notRegistered lookup => "Function." ++ lookup.label ++ ": variable not found."
  | notTerm typeName => s!"Function.add_term: {typeName} is not a Term"
  | arity given declared =>
      "Function.add_term: incorrect number of arguments "
        ++ s!"({given} given, term takes {declared})."
  | argumentDimension argument registered declared =>
      "Function.add_term: variable dimension does not match term "
        ++ s!"(argument {argument}: {registered} != {declared})."
  | threadCount count => s!"Function.set_number_of_threads: invalid number of threads {count}"
  | newThreadCount count => s!"Invalid number of threads: {count}"
  | unsupportedSummand typeName =>
      "unsupported operand type(s) for +=: 'Function' and '" ++ typeName ++ "'"
  | mergeChanged => "Function +=: change of variables is not supported when merging."
  | mergeDimensions => "Function +=: variable registered with different dimensions."
  | hessianDisabled => "Function.evaluate: Hessian computation is not enabled."
  | hessianChanged => "Function.evaluate: change of variables not supported for Hessians."
  | intervalChanged => "Function.evaluate_interval: change of variables not supported."
  | streamChanged => "Function.write_to_stream: change of variables not allowed."
  | pointSize given expected => s!"Point has {given} scalars, the function has {expected}"
  | intervalPointSize given expected =>
      s!"Interval point has {given} entries, the function has {expected}"
  | broadcast given expected =>
      "could not broadcast input array from shape " ++ extentsText "," given
        ++ " into shape " ++ extentsText "," expected
  | noAxis => "too many indices for array: array is 0-dimensional, but 1 were indexed"
  | notEntries => "can only assign an iterable"
  | sharedCells => "cannot resize this array: it does not own its data"
  | notResizable typeName => "'" ++ typeName ++ "' object has no attribute 'resize'"
  | wholeNaN => "cannot convert float NaN to integer"
  | wholeInfinity => "cannot convert float infinity to integer"
  | beyondMatrix axis index size =>
      s!"axis {axis} index {index} exceeds matrix dimension {size}"
  | noArgument => "list index out of range"
  | noComponent index size =>
      s!"index {index} is out of bounds for axis 0 with size {size}"
  | emptyInterval lower upper =>
      "Empty interval [" ++ Numeral.write lower ++ ", " ++ Numeral.write upper ++ "]"
  | noIntervals className => className ++ " does not support interval evaluation"
  | severalLines className => className ++ ".serialize() must return a single line"
  | reading part => "Function.read_from_stream: Reading " ++ part.label ++ " failed."
  | notStream => "Function.read_from_stream: Not a function stream."
  | streamVersion version => s!"Function.read_from_stream: Unsupported version {version}."
  | foreignFormat =>
      "Function.read_from_stream: Type format does not match. "
        ++ "Files can not be shared between platforms."
  | variableCount => "Function.read_from_stream: Not enough variables in stream."
  | dimensionSum => "Function.read_from_stream: Variable dimensions do not add up."
  | scalarCount => "Function.read_from_stream: Not enough scalars in stream."
  | termVariables name =>
      "Function.read_from_stream: Invalid variables for term '" ++ name ++ "'."
  | unknownTerm name => "TermFactory: unknown term '" ++ name ++ "'"
  | notTermClass typeName => "<class '" ++ typeName ++ "'> is not a Term subclass"
  | notNumber text => "could not convert string to float: " ++ Text.quoted text
  | iterationLimit value => s!"maximum_iterations must be >= 0, got {value}"
  | negativeTolerance setting value =>
      setting ++ " must be non-negative, got " ++ Numeral.write value
  | historySize value => s!"lbfgs_history_size must be positive, got {value}"
  | sufficientDecrease value => "line_search_c must lie in (0, 1), got " ++ Numeral.write value
  | contraction value => "line_search_rho must lie in (0, 1), got " ++ Numeral.write value
  | startStep value => "start_alpha must be positive, got " ++ Numeral.write value
  | sparsityMode text => "Unknown sparsity_mode " ++ Text.quoted text
  | factorizationMethod text => "Unknown factorization_method " ++ Text.quoted text
  | unknownSetting name =>
      "SolverConfig.__init__() got an unexpected keyword argument '" ++ name ++ "'"
  | unknownMethod text => Text.quoted text ++ " is not a valid Method"
  | methodUnavailable name => s!"Method {name} is not available in this package"
  | notSquare rows columns => "Hessian must be square, got " ++ shapeText [rows, columns]
  | gradientSize rows columns size =>
      "Hessian " ++ shapeText [rows, columns] ++ " does not match gradient " ++ shapeText [size]
  | notFinite => "array must not contain infs or NaNs"
  | noShift => "No positive definite shift of the Hessian found"
  | divisionByZero => "float division by zero"
  | overflow => "(34, 'Numerical result out of range')"
  | domain => "math domain error"
  | reported _ message => message

end Fault

end Descent
