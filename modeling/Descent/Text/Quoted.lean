import Descent.Text.Printable

namespace Descent.Text

def apostrophe : Char := Char.ofNat 39

def doubleQuote : Char := Char.ofNat 34

def backslash : Char := Char.ofNat 92

def hexadecimal (width n : Nat) : List Char :=
  let digits := Nat.toDigits 16 n
  List.replicate (width - digits.length) '0' ++ digits

def escape (quote c : Char) : List Char :=
  if c = quote ∨ c = backslash then [backslash, c]
  else if c = '\n' then [backslash, 'n']
  else if c = '\r' then [backslash, 'r']
  else if c = '\t' then [backslash, 't']
  else if isPrintable c then [c]
  else if c.toNat < 0x100 then backslash :: 'x' :: hexadecimal 2 c.toNat
  else if c.toNat < 0x10000 then backslash :: 'u' :: hexadecimal 4 c.toNat
  else backslash :: 'U' :: hexadecimal 8 c.toNat

def quoted (text : String) : String :=
  let characters := text.toList
  let quote := if characters.contains apostrophe && !characters.contains doubleQuote
    then doubleQuote else apostrophe
  String.ofList (quote :: characters.flatMap (escape quote) ++ [quote])

end Descent.Text
