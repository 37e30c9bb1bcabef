import Descent.Text.Blank
import Descent.Text.Digit

namespace Descent.Decimal

def plainDigit (c : Char) : Char :=
  match Text.digit? c with
  | some d => Nat.digitChar d
  | none => c

def joinDigits? (afterDigit : Bool) : List Char → Option (List Char)
  | [] => some []
  | '_' :: c :: rest =>
      if afterDigit && c.isDigit then (joinDigits? true rest).map (c :: ·) else none
  | '_' :: [] => none
  | c :: rest => (joinDigits? c.isDigit rest).map (c :: ·)

def splitSign : List Char → Bool × List Char
  | '-' :: rest => (true, rest)
  | '+' :: rest => (false, rest)
  | text => (false, text)

def numeral? (text : List Char) : Option (Bool × List Char) :=
  (joinDigits? false ((Text.trim text).map plainDigit)).map splitSign

def natural? (text : List Char) : Option Nat :=
  if !text.isEmpty && text.all Char.isDigit then
    some (text.foldl (fun n c => 10 * n + (c.toNat - '0'.toNat)) 0)
  else none

def integer? (text : List Char) : Option Int := do
  let (negative, digits) ← numeral? text
  let n ← natural? digits
  return if negative then -n else n

inductive Written where
  | decimal (significand : Nat) (exponent : Int)
  | infinity
  | nan

def exponent? : List Char → Option Int
  | [] => some 0
  | mark :: rest => do
      guard (mark.toLower = 'e')
      let (negative, digits) := splitSign rest
      let n ← natural? digits
      return if negative then -n else n

def unsigned? (text : List Char) : Option Written :=
  match String.ofList (text.map Char.toLower) with
  | "inf" => some .infinity
  | "infinity" => some .infinity
  | "nan" => some .nan
  | _ => do
      let whole := text.takeWhile Char.isDigit
      let rest := text.dropWhile Char.isDigit
      let (fraction, rest) := match rest with
        | '.' :: rest => (rest.takeWhile Char.isDigit, rest.dropWhile Char.isDigit)
        | rest => ([], rest)
      let significand ← natural? (whole ++ fraction)
      let exponent ← exponent? rest
      return .decimal significand (exponent - fraction.length)

def Written.toFloat : Written → Float
  | infinity => 1.0 / 0.0
  | nan => 0.0 / 0.0
  | decimal significand exponent =>
      -- powers of ten far beyond all binary numbers are not computed
      let point := (Nat.toDigits 10 significand).length + exponent
      if significand = 0 ∨ point < -400 then 0.0
      else if 400 < point then 1.0 / 0.0
      else Float.ofScientific significand (decide (exponent < 0)) exponent.natAbs

def float? (text : List Char) : Option Float := do
  let (negative, digits) ← numeral? text
  let value := (← unsigned? digits).toFloat
  return if negative then -value else value

end Descent.Decimal
