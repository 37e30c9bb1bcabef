import Descent.Factory
import Descent.Scalar
import Descent.Text.Blank

namespace Descent.Sample

variable {α : Type}

def basicKind (className : String) : TermKind := ⟨className, "terms." ++ className⟩

def extendedKind (className : String) : TermKind := ⟨className, "xterms." ++ className⟩

section Arithmetic

variable [Scalar α]

def half : α := Scalar.ratio 1 2

def subtract (x y : List α) : List α := List.zipWith (· - ·) x y

def halfSquare (r : List α) : α := half * (List.zipWith (· * ·) r r).foldl (· + ·) 0

def unit (i j : Nat) : α := if i = j then 1 else 0

def argument (x : List (List α)) (k : Nat) : List α := x.getD k []

def component (x : List (List α)) (k i : Nat) : α := (argument x k).getD i 0

def scalarJet (value slope curvature : α) : Jet α :=
  ⟨value, fun _ _ => slope, fun _ _ _ _ => curvature⟩

def scalarTerm (kind : TermKind) (evaluate : α → Filling α α) : Term α where
  kind
  arity := 1
  dimension _ := .ok 1
  evaluate _ x := evaluate (component x 0 0)
  range := Term.noRange kind
  payload := ""

def constant (value : α) : Term α :=
  scalarTerm (basicKind "Constant") fun _ => return value

def failing (message : String) : Term α :=
  scalarTerm (basicKind "Failing") fun _ => throw (.reported "RuntimeError" message)

def cliff (limit beyond : α) : Term α :=
  scalarTerm (extendedKind "Cliff") fun x =>
    if limit ≤ x then return beyond else (scalarJet (half * x * x) x 1).put

def trap (limit : α) (message : String) : Term α :=
  scalarTerm (extendedKind "Trap") fun x =>
    if x < limit then throw (.reported "RuntimeError" message)
    else (scalarJet (half * x * x) x 1).put

def skewed (slope curvature : α) : Term α :=
  scalarTerm (extendedKind "Skewed") fun x => (scalarJet (half * x * x) (slope * x) curvature).put

def named (payload : String) : Term α :=
  { scalarTerm (extendedKind "Named") fun _ => return 0 with payload }

def payloadOf [Numeral α] (values : List α) : String := " ".intercalate (values.map Numeral.write)

def quadraticRange (center : List α) (x : List (List (Interval α))) :
    Except (Fault α) (Interval α) :=
  ((x.headD []).zip center).foldlM (fun total (xi, ai) => do
    let square ← (← xi.sub (.point ai)).square
    total.add (← square.mul (.point half))) (.point 0)

def quadratic [Numeral α] (center : List α) : Term α where
  kind := basicKind "Quadratic"
  arity := 1
  dimension _ := .ok center.length
  evaluate _ x :=
    let r := subtract (argument x 0) center
    (Jet.mk (halfSquare r) (fun _ i => r.getD i 0) fun _ _ i j => unit i j).put
  range := quadraticRange center
  payload := payloadOf center

def pair [Numeral α] (offset : List α) : Term α where
  kind := basicKind "Pair"
  arity := 2
  dimension _ := .ok offset.length
  evaluate _ x :=
    let r := subtract (subtract (argument x 0) (argument x 1)) offset
    (Jet.mk (halfSquare r) (fun k i => if k = 0 then r.getD i 0 else -(r.getD i 0))
      fun k l i j => if k = l then unit i j else -(unit i j)).put
  range := Term.noRange (basicKind "Pair")
  payload := payloadOf offset

def readNumbers [Numeral α] (payload : String) : Except (Fault α) (List α) :=
  (Text.words payload.toList).mapM fun word =>
    let text := String.ofList word
    match Numeral.read? text with
    | some value => .ok value
    | none => .error (.notNumber text)

abbrev Factor := Nat × Nat

abbrev Monomial (α : Type) := α × List Factor

def product (coefficient : α) (values : List α) (kept : Nat → Bool) : α :=
  values.zipIdx.foldl (fun m (v, p) => if kept p then m * v else m) coefficient

def factorValues (x : List (List α)) (factors : List Factor) : Except (Fault α) (List α) :=
  factors.mapM fun (k, i) =>
    match x[k]? with
    | none => .error .noArgument
    | some xs =>
        match xs[i]? with
        | none => .error (.noComponent i xs.length)
        | some v => .ok v

def monomialSlope (coefficient : α) (factors : List Factor) (values : List α) (f : Factor)
    (total : α) : α :=
  factors.zipIdx.foldl (fun total (g, p) =>
    if g = f then total + product coefficient values (· != p) else total) total

def monomialCurvature (coefficient : α) (factors : List Factor) (values : List α) (f g : Factor)
    (total : α) : α :=
  factors.zipIdx.foldl (fun total (f', p) =>
    factors.zipIdx.foldl (fun total (g', q) =>
      if f' = f ∧ g' = g ∧ p ≠ q then
        total + product coefficient values fun r => r != p && r != q
      else total) total) total

def monomialRange (x : List (List (Interval α))) (m : Monomial α) :
    Except (Fault α) (Interval α) :=
  m.2.foldlM (fun product (k, i) =>
    match x[k]?.bind (·[i]?) with
    | none => .error .noArgument
    | some v => product.mul v) (.point m.1)

def polynomial (dimensions : List Int) (monomials : List (Monomial α)) : Term α where
  kind := extendedKind "Poly"
  arity := dimensions.length
  dimension k := match dimensions[k]? with
    | some d => .ok d
    | none => .error .noArgument
  evaluate _ x := do
    let parts ← monomials.mapM fun (c, factors) => return (c, factors, ← factorValues x factors)
    -- the derivatives of the monomials are added to what the buffers hold
    modify fun given => {
      gradient := fun k i =>
        parts.foldl (fun total (c, factors, values) =>
          monomialSlope c factors values (k, i) total) (given.gradient k i)
      hessian := fun k l i j =>
        parts.foldl (fun total (c, factors, values) =>
          monomialCurvature c factors values (k, i) (l, j) total) (given.hessian k l i j) }
    return parts.foldl (fun total (c, _, values) => total + product c values fun _ => true) 0
  range x := monomials.foldlM (fun total m => do total.add (← monomialRange x m)) (.point 0)
  payload := ""

end Arithmetic

section Powers

variable [Elementary α]

def power (a : α) (n : Nat) : Except (Fault α) α :=
  let result := Elementary.power a n
  if Scalar.isInfinite result && Scalar.isFinite a then .error .overflow else .ok result

def rosenbrock : Term α where
  kind := basicKind "Rosenbrock"
  arity := 2
  dimension _ := .ok 1
  evaluate _ x := do
    let n (k : Nat) : α := Scalar.ofNat k
    let u := component x 0 0
    let v := component x 1 0
    let d := v - u * u
    let square ← power (1 - u) 2
    Jet.put {
      value := square + n 100 * d * d
      gradient := fun k _ => if k = 0 then -n 2 * (1 - u) - n 400 * u * d else n 200 * d
      hessian := fun k l _ _ =>
        if k = 0 ∧ l = 0 then n 2 - n 400 * v + n 1200 * u * u
        else if k = 1 ∧ l = 1 then n 200
        else -n 400 * u }
  range := Term.noRange (basicKind "Rosenbrock")
  payload := ""

def saddle : Term α where
  kind := basicKind "Saddle"
  arity := 1
  dimension _ := .ok 2
  evaluate request x := do
    let a := component x 0 0
    let b := component x 0 1
    let cube ← if request = .value then pure 0 else power b 3
    let fourth ← power b 4
    Jet.put {
      value := half * a * a - half * b * b + Scalar.ratio 1 4 * fourth
      gradient := fun _ i => if i = 0 then a else -b + cube
      hessian := fun _ _ i j =>
        if i ≠ j then 0 else if i = 0 then 1 else -1 + Scalar.ofNat 3 * b * b }
  range := Term.noRange (basicKind "Saddle")
  payload := ""

variable [Numeral α]

def classes : List (TermClass α) :=
  let plain (t : Term α) : TermClass α := ⟨t.kind, fun _ => .ok t⟩
  [⟨basicKind "Quadratic", fun payload => return quadratic (← readNumbers payload)⟩,
    ⟨basicKind "Pair", fun payload => return pair (← readNumbers payload)⟩,
    plain rosenbrock, plain saddle, plain (constant 0), plain (failing "boom"),
    plain (polynomial [1] []), plain (cliff 1 (0 / 0)), plain (trap 0 "trapped"),
    plain (skewed 1 1), ⟨extendedKind "Named", fun payload => .ok (named payload)⟩]

def class? (className : String) : Option (TermClass α) :=
  classes.find? (·.kind.className = className)

end Powers

end Descent.Sample
