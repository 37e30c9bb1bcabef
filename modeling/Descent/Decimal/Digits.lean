import Descent.Binary64

/-!
# Decimal digits of a number

The digits of a positive number, by exact arithmetic on natural numbers: the fewest digits that
read back to it, a fixed number of significant digits, or a fixed number of places. Digits and
`point` stand for `0.d₁d₂…dₙ * 10 ^ point`.
-/

namespace Descent

structure Decimal where
  digits : List Char
  point : Int

namespace Decimal

def ofNat (n : Nat) (exponent : Int) : Decimal :=
  let digits := Nat.toDigits 10 n
  ⟨digits, digits.length + exponent⟩

def trimmed (d : Decimal) : Decimal :=
  ⟨(d.digits.reverse.dropWhile (· = '0')).reverse, d.point⟩

def magnitude (v : Quotient) : Int :=
  if v.den ≤ v.num then (Nat.toDigits 10 v.floor).length
  else
    let leading := (List.range ((Nat.toDigits 10 v.den).length + 1)).find? fun j =>
      v.den ≤ v.num * Nat.pow 10 j
    1 - (leading.getD 0 : Nat)

def significant (count : Nat) (v : Quotient) : Decimal :=
  let places := count - magnitude v
  let rounded := ofNat (v.scale 10 places).round (-places)
  -- where rounding carries into a further place, the last digit is a zero
  ⟨rounded.digits.take count, rounded.point⟩

/-- The numbers that read as `significand * 2 ^ exponent`: those between the middles to both
neighbours, the middles included if the significand is even. All are counted in quarters of the
last binary place. -/
structure Rounding where
  low : Nat
  value : Nat
  high : Nat
  closed : Bool
  unit : Quotient

namespace Rounding

def ofBinary (significand : Nat) (exponent : Int) : Rounding :=
  let isolated := significand = Nat.pow 2 52 ∧ -1074 < exponent
  { low := 4 * significand - if isolated then 1 else 2
    value := 4 * significand
    high := 4 * significand + 2
    closed := significand % 2 = 0
    unit := .scaled 1 2 (exponent - 2) }

def holds (r : Rounding) (scaled : Quotient) (n : Nat) : Bool :=
  let n := n * scaled.den
  let low := r.low * scaled.num
  let high := r.high * scaled.num
  if r.closed then low ≤ n && n ≤ high else low < n && n < high

def onGrid? (r : Rounding) (places : Int) : Option Nat :=
  let scaled := r.unit.scale 10 places
  let exact := r.value * scaled.num
  let below := exact / scaled.den
  let above := below + 1
  match r.holds scaled below, r.holds scaled above with
  | true, true =>
      let down := exact - below * scaled.den
      let up := above * scaled.den - exact
      some (if down < up ∨ (down = up ∧ below % 2 = 0) then below else above)
  | true, false => some below
  | false, true => some above
  | false, false => none

end Rounding

/-- The fewest digits that read back as `significand * 2 ^ exponent`, and of those the nearest;
seventeen always do. -/
def shortest (significand : Nat) (exponent : Int) : Decimal :=
  let rounding := Rounding.ofBinary significand exponent
  let value := Quotient.scaled significand 2 exponent
  let point := magnitude value
  let found := (List.range 17).findSome? fun (k : Nat) =>
    let places := (k + 1 : Int) - point
    (rounding.onGrid? places).map fun n => (ofNat n (-places)).trimmed
  found.getD (significant 17 value).trimmed

end Decimal

end Descent
