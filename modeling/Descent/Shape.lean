namespace Descent

abbrev Shape := List Nat

namespace Shape

variable {α : Type}

def size (shape : Shape) : Nat := shape.foldr (· * ·) 1

def dropOuter : (surplus : Nat) → Shape → Shape
  | surplus + 1, 1 :: inner => dropOuter surplus inner
  | _, shape => shape

/-- The same cells along another number of axes, as far as outer axes of extent one can be added or
left out. -/
def withAxes (axes : Nat) (shape : Shape) : Shape :=
  List.replicate (axes - shape.length) 1 ++ dropOuter (shape.length - axes) shape

def fills : (given wanted : Shape) → Bool
  | [], [] => true
  | g :: given, w :: wanted => (g == w || g == 1) && fills given wanted
  | _, _ => false

def part (length k : Nat) (values : List α) : List α := (values.drop (k * length)).take length

def fill : (given wanted : Shape) → List α → List α
  | g :: given, w :: wanted, values =>
      (List.range w).flatMap fun k =>
        fill given wanted (part (size given) (if g = w then k else 0) values)
  | _, _, values => values

end Shape

end Descent
