import Stockroom.Number.Binary64Text

namespace Stockroom

abbrev Amount := Binary64

namespace Amount

def places : Nat := 2

def ofDecimal? (d : Decimal) : Option Amount :=
  match Binary64.ofDecimal d with
  | .nan => none
  | .finite s m e => some (.finite (s && m ≠ 0) m e)
  | x => some x

def read (a : Amount) : Decimal := a.toDecimal places

end Amount
end Stockroom
