import Stockroom.Number.Decimal

namespace Stockroom

structure Product where
  code : String
  name : String
  stock : Int
  price : Decimal
  archived : Bool := false
  /-- How often the product's description was changed. -/
  version : Int := 0
  deriving DecidableEq, Repr, Inhabited

end Stockroom
