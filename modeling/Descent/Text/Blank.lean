namespace Descent.Text

def wideBlanks : List Nat := [
  0x85, 0xa0, 0x1680, 0x2000, 0x2001, 0x2002, 0x2003, 0x2004, 0x2005, 0x2006, 0x2007, 0x2008,
  0x2009, 0x200a, 0x2028, 0x2029, 0x202f, 0x205f, 0x3000]

def isBlank (c : Char) : Bool :=
  (9 ≤ c.toNat && c.toNat ≤ 13) || c.toNat == 32 || wideBlanks.contains c.toNat

def isSeparator (c : Char) : Bool := isBlank c || (28 ≤ c.toNat && c.toNat ≤ 31)

def trim (text : List Char) : List Char :=
  ((text.dropWhile isBlank).reverse.dropWhile isBlank).reverse

def splitWords : List Char → List Char × List (List Char)
  | [] => ([], [])
  | c :: rest =>
      let (word, words) := splitWords rest
      if isSeparator c then ([], if word.isEmpty then words else word :: words)
      else (c :: word, words)

def words (text : List Char) : List (List Char) :=
  let (word, words) := splitWords text
  if word.isEmpty then words else word :: words

end Descent.Text
