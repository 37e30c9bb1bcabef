import Descent.Fault

namespace Descent

inductive ElementType where
  | double
  | single
  | whole
  deriving DecidableEq

namespace ElementType

def name : ElementType → String
  | double => "float64"
  | single => "float32"
  | whole => "int64"

def ofName? (text : String) : Option ElementType := [double, single, whole].find? (·.name = text)

/-- The number of a type that takes the place of another one. No whole number takes the place of NaN
or of an infinity. -/
def hold (type : ElementType) (x : Float) : Except (Fault Float) Float :=
  match type with
  | double => .ok x
  | single => .ok x.toFloat32.toFloat
  | whole =>
      if x.isNaN then .error .wholeNaN
      else if x.isInf then .error .wholeInfinity
      else .ok (if x < 0 then x.ceil else x.floor)

end ElementType

end Descent
