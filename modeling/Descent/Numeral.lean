import Descent.Decimal.Text
import Descent.Decimal.Reader

namespace Descent

class Numeral (α : Type) where
  write : α → String
  read? : String → Option α

instance : Numeral Float where
  write := Decimal.exact
  read? := fun text => Decimal.float? text.toList

end Descent
