import Descent.Interval
import Descent.Log

namespace Descent

open Decimal

namespace Solver

def label : Solver → String
  | newton => "Newton"
  | lbfgs => "L-BFGS"

def columns : Solver → String
  | newton =>
      " ".intercalate [padded 4 "Itr", padded 14 "f", padded 12 "max|g_i|", padded 10 "alpha",
        padded 10 "H_reg"]
  | lbfgs =>
      " ".intercalate [padded 4 "Itr", padded 14 "f", padded 12 "max|g_i|", padded 10 "alpha",
        padded 5 "hist"]

end Solver

def Stage.label : Stage → String
  | evaluation => "evaluation"
  | factorization => "factorization"
  | lineSearch => "line search"

structure RunTimes where
  startup : Float := 0
  functionEvaluation : Float := 0
  stoppingCriteria : Float := 0
  matrixFactorization : Float := 0
  lbfgsUpdate : Float := 0
  linearSolver : Float := 0
  backtracking : Float := 0
  log : Float := 0
  total : Float := 0

structure Bounds where
  lower : Float := -1.0 / 0.0
  upper : Float := 1.0 / 0.0

namespace Report

def rule (width : Nat) : String := String.ofList (List.replicate width '-')

def labelled (width : Nat) (label : String) : String :=
  label ++ String.ofList (List.replicate (width - label.length) ' ') ++ ": "

def results (exit : ExitCondition) (iterations : Int) (times : RunTimes) (bounds : Bounds) :
    String :=
  let seconds (t : Float) := padded 10 (fixed 6 t) ++ " s"
  let parts := [
    ("Startup", times.startup),
    ("Function evaluation", times.functionEvaluation),
    ("Stopping criteria", times.stoppingCriteria),
    ("Matrix factorization", times.matrixFactorization),
    ("Lbfgs update", times.lbfgsUpdate),
    ("Linear solver", times.linearSolver),
    ("Backtracking", times.backtracking),
    ("Log", times.log)]
  let optimum :=
    if bounds.lower.isFinite || bounds.upper.isFinite then
      [labelled 26 "Optimum in" ++ "[" ++ general bounds.lower ++ ", " ++ general bounds.upper
        ++ "]"]
    else []
  "\n".intercalate <|
    [rule 50, labelled 26 "Exit condition" ++ exit.name,
      labelled 26 "Iterations" ++ toString iterations]
    ++ parts.map (fun (label, t) => "  " ++ labelled 24 label ++ seconds t)
    ++ [labelled 26 "Total time" ++ seconds times.total] ++ optimum ++ [rule 50]

end Report

structure EvaluationTimes where
  allocation : Float := 0
  evaluate : Float := 0
  evaluateWithDerivatives : Float := 0
  writeDerivatives : Float := 0
  copy : Float := 0

def Report.evaluations (withoutGradient withGradient : Nat) (times : EvaluationTimes) : String :=
  let seconds (label : String) (t : Float) := Report.labelled 34 label ++ fixed 6 t
  let lines := [
    Report.rule 52,
    Report.labelled 38 "Function evaluations without gradient" ++ toString withoutGradient,
    Report.labelled 38 "Function evaluations with gradient" ++ toString withGradient,
    seconds "Function memory allocation time" times.allocation,
    seconds "Function evaluate time" times.evaluate,
    seconds "Function evaluate time (with g/H)" times.evaluateWithDerivatives,
    seconds "Function write g/H time" times.writeDerivatives,
    seconds "Function copy data time" times.copy,
    Report.rule 52]
  String.join (lines.map (· ++ "\n"))

def Report.counts (vars terms scalars constants : Nat) : String :=
  s!"Function(variables={vars}, terms={terms}, scalars={scalars}, constants={constants})"

def Interval.text (i : Interval Float) : String :=
  "[" ++ general i.lower ++ ", " ++ general i.upper ++ "]"

namespace Message

def text : Message Float → String
  | newtonStart scalars terms sparse method =>
      let form := if sparse then "sparse" else "dense"
      s!"Newton: {scalars} variables, {terms} terms, {form} Hessian, " ++ method.name
  | lbfgsStart scalars terms historySize =>
      s!"L-BFGS: {scalars} variables, {terms} terms, history {historySize}"
  | columns solver => solver.columns
  | newtonRow iterations value gradientNorm step shift =>
      " ".intercalate [padded 4 (toString iterations), padded 14 (exponential 6 value),
        padded 12 (exponential 4 gradientNorm), padded 10 (exponential 3 step),
        padded 10 (exponential 3 shift)]
  | lbfgsRow iterations value gradientNorm step history =>
      " ".intercalate [padded 4 (toString iterations), padded 14 (exponential 6 value),
        padded 12 (exponential 4 gradientNorm), padded 10 (exponential 3 step),
        padded 5 (toString history)]
  | failed solver stage fault =>
      solver.label ++ ": " ++ stage.label ++ " failed: " ++ fault.category ++ ": " ++ fault.message
  | summary exit iterations => Report.results exit iterations {} {}
  | notDescent slope =>
      "Line search: not a descent direction (gᵀp=" ++ exponential 3 slope ++ ")"
  | stepUnderflow evaluations step =>
      s!"Line search failed: step underflow after {evaluations} evaluations (alpha="
        ++ exponential 2 step ++ ")"
  | hessianModified method shift modified attempts =>
      method.name ++ ": Hessian modified (sigma=" ++ exponential 3 shift
        ++ s!", modified={modified}, attempts={attempts})"
  | updateSkipped curvature => "L-BFGS: skipping update with sᵀy=" ++ exponential 3 curvature
  | directionDiscarded => "L-BFGS: not a descent direction, restarting"
  | restarted iterations => s!"L-BFGS: restart at iteration {iterations}"

end Message

def Entry.record (entry : Entry Float) : String :=
  let level := match entry.channel with
    | .progress => "INFO"
    | .debug => "DEBUG"
    | .warning => "WARNING"
  level ++ ": " ++ entry.message.text

end Descent
