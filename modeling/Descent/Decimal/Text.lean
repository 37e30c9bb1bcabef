import Descent.Decimal.Digits

namespace Descent.Decimal

structure Layout where
  firstPositional : Int
  lastPositional : Int
  markWhole : Bool

def Layout.exact : Layout := ⟨-4, 15, true⟩

def Layout.general : Layout := ⟨-4, 5, false⟩

def exponentText (exponent : Int) : List Char :=
  let digits := Nat.toDigits 10 exponent.natAbs
  (if exponent < 0 then '-' else '+') :: (if digits.length < 2 then '0' :: digits else digits)

def scientific (d : Decimal) : List Char :=
  match d.digits with
  | [] => ['0']
  | first :: rest =>
      first :: (if rest.isEmpty then [] else '.' :: rest) ++ 'e' :: exponentText (d.point - 1)

def positional (markWhole : Bool) (d : Decimal) : List Char :=
  if d.point ≤ 0 then
    '0' :: '.' :: List.replicate (-d.point).toNat '0' ++ d.digits
  else
    let whole := d.digits.take d.point.toNat
    let rest := d.digits.drop d.point.toNat
    let whole := whole ++ List.replicate (d.point.toNat - whole.length) '0'
    if rest.isEmpty then whole ++ (if markWhole then ['.', '0'] else []) else whole ++ '.' :: rest

def Layout.write (layout : Layout) (d : Decimal) : List Char :=
  if layout.firstPositional ≤ d.point - 1 ∧ d.point - 1 ≤ layout.lastPositional then
    positional layout.markWhole d
  else scientific d

def signed (zero : List Char) (positive : Nat → Int → List Char) (x : Float) : String :=
  let sign (negative : Bool) (text : List Char) := String.ofList (if negative then '-' :: text else text)
  match Binary64.ofFloat x with
  | .nan => "nan"
  | .infinite negative => sign negative "inf".toList
  | .finite negative 0 _ => sign negative zero
  | .finite negative significand exponent => sign negative (positive significand exponent)

def exact (x : Float) : String :=
  signed "0.0".toList (fun m e => Layout.exact.write (shortest m e)) x

def exponential (places : Nat) (x : Float) : String :=
  let zeros := if places = 0 then [] else '.' :: List.replicate places '0'
  signed ('0' :: zeros ++ "e+00".toList)
    (fun m e => (significant (places + 1) (.scaled m 2 e)).scientific) x

def general (x : Float) : String :=
  signed ['0'] (fun m e => Layout.general.write (significant 6 (.scaled m 2 e)).trimmed) x

def fixed (places : Nat) (x : Float) : String :=
  let write (n : Nat) : List Char :=
    let digits := Nat.toDigits 10 n
    let digits := List.replicate (places + 1 - digits.length) '0' ++ digits
    let whole := digits.take (digits.length - places)
    if places = 0 then whole else whole ++ '.' :: digits.drop (digits.length - places)
  signed (write 0) (fun m e => write ((Quotient.scaled m 2 e).scale 10 places).round) x

def padded (width : Nat) (text : String) : String :=
  String.ofList (List.replicate (width - text.length) ' ') ++ text

end Descent.Decimal
