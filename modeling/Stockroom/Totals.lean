import Stockroom.Fault

namespace Stockroom

def lineTotal (quantity : Int) (unitPrice : Decimal) : Except ArithmeticFault Decimal := do
  (← unitPrice.multiply (.ofInt quantity)).toCents .away

def givenLineTotal (quantity : Option Int) (unitPrice : Option Decimal) : Except Fault Decimal :=
  match quantity, unitPrice with
  | some q, some p => (lineTotal q p).mapError .arithmetic
  | _, _ => .error .missingAmount

def addTotal (sum : Decimal) : Option Decimal → Except ArithmeticFault Decimal
  | none => .ok sum
  | some total => do if ← (Decimal.ofInt 0).below total then sum.add total else .ok sum

def orderTotal (totals : List (Option Decimal)) : Except ArithmeticFault Decimal := do
  (← totals.foldlM addTotal (.ofCents 0)).toCents .even

end Stockroom
