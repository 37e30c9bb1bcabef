namespace Descent

inductive Binary64 where
  | nan
  | infinite (negative : Bool)
  | finite (negative : Bool) (significand : Nat) (exponent : Int)

namespace Binary64

def ofFloat (x : Float) : Binary64 :=
  let bits := x.toBits.toNat
  let negative : Bool := bits / Nat.pow 2 63 = 1
  let exponent : Nat := bits / Nat.pow 2 52 % 2048
  let fraction : Nat := bits % Nat.pow 2 52
  if exponent = 2047 then if fraction = 0 then infinite negative else nan
  else if exponent = 0 then finite negative fraction (-1074)
  else finite negative (Nat.pow 2 52 + fraction) ((exponent : Int) - 1075)

end Binary64

structure Quotient where
  num : Nat
  den : Nat

namespace Quotient

def scaled (n base : Nat) (exponent : Int) : Quotient :=
  if 0 ≤ exponent then ⟨n * Nat.pow base exponent.toNat, 1⟩
  else ⟨n, Nat.pow base (-exponent).toNat⟩

def scale (v : Quotient) (base : Nat) (exponent : Int) : Quotient :=
  if 0 ≤ exponent then ⟨v.num * Nat.pow base exponent.toNat, v.den⟩
  else ⟨v.num, v.den * Nat.pow base (-exponent).toNat⟩

def floor (v : Quotient) : Nat := v.num / v.den

def round (v : Quotient) : Nat :=
  let below := v.num / v.den
  let rest := v.num % v.den
  if 2 * rest < v.den ∨ (2 * rest = v.den ∧ below % 2 = 0) then below else below + 1

end Quotient

end Descent
