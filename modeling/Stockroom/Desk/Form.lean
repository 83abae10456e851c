import Stockroom.Field.Typed
import Stockroom.Number.Context

namespace Stockroom
namespace Desk

open Stockroom.Field

def sizedText (atLeast : Nat) (atMost : Option Nat) : Reader String := fun x =>
  (text x).andThen fun s =>
    if s.length < atLeast then .issue (.stringTooShort atLeast)
    else match atMost with
      | some n => if n < s.length then .issue (.stringTooLong n) else .accepted s
      | none => .accepted s

def intFrom (bound : Int) : Reader Nat := fun x => (int x).andThen (atLeast bound)

def orNull {α : Type} (read : Reader α) : Reader (Option α)
  | .null => .accepted none
  | x => (read x).map some

def listOf {α : Type} (least : Nat) (read : Reader α) : Reader (List α)
  | .array items =>
    if items.length < least then .issue (.tooShort least items.length)
    else Checked.list read 0 items
  | _ => .issue .listType

def objectOf {α : Type} (read : List (String × Json) → Checked α) : Reader α
  | .object members => read members
  | _ => .issue .modelAttributesType

/- Prices -/

/-- The digits of a finite decimal: all of them, and those behind the point. A decimal below
one counts the zeros behind its point, one with a positive exponent those before it. -/
def digitsOf : Decimal → Nat × Nat
  | .finite _ c e =>
    if 0 ≤ e then (digitCount c + e.toNat, 0) else (max (digitCount c) e.natAbs, e.natAbs)
  | _ => (0, 0)

def shortest (d : Decimal) : Decimal :=
  match d.normalize with
  | .ok d => d
  | .error _ => d

def priceDigits : Nat := 17

def pricePlaces : Nat := 2

def fits (count : Nat × Nat → Nat) (atMost : Nat) (d : Decimal) : Bool :=
  count (digitsOf (shortest d)) ≤ atMost || count (digitsOf d) ≤ atMost

def isAtLeastCent : Decimal → Bool
  | .finite negative c e => !negative && c ≠ 0 && -2 ≤ Decimal.adjusted c e
  | _ => false

def checkPrice (d : Decimal) : Checked Decimal :=
  if !fits (·.1) priceDigits d then .issue (.decimalMaxDigits priceDigits)
  else if !fits (·.2) pricePlaces d then .issue (.decimalMaxPlaces pricePlaces)
  else if !fits (fun n => n.1 - n.2) (priceDigits - pricePlaces) d then
    .issue (.decimalWholeDigits (priceDigits - pricePlaces))
  else if isAtLeastCent d then .accepted d
  else .issue (.greaterThanEqual (.ofCents 1))

def readPrice : Reader Decimal := fun x => (decimal .usual x).andThen checkPrice

/- Bodies -/

structure NewProduct where
  code : String
  name : String
  stock : Nat
  price : Decimal
  deriving DecidableEq, Repr

def NewProduct.read : Reader NewProduct := objectOf fun ms =>
  NewProduct.mk <$> required ms "code" (sizedText 1 (some 50))
    <*> required ms "name" (sizedText 1 (some 255))
    <*> required ms "stock_quantity" (intFrom 0)
    <*> required ms "price_per_unit" readPrice

structure ProductChange where
  name : String
  stock : Option Nat
  price : Decimal
  deriving DecidableEq, Repr

def ProductChange.read : Reader ProductChange := objectOf fun ms =>
  ProductChange.mk <$> required ms "name" (sizedText 1 (some 255))
    <*> optional ms "stock_quantity" none (orNull (intFrom 0))
    <*> required ms "price_per_unit" readPrice

structure WantedProduct where
  code : String
  quantity : Nat
  deriving DecidableEq, Repr

def WantedProduct.read : Reader WantedProduct := objectOf fun ms =>
  WantedProduct.mk <$> required ms "product_code" (sizedText 1 none)
    <*> required ms "quantity" (intFrom 1)

def wantedProducts : Reader (List WantedProduct) := objectOf fun ms =>
  required ms "items" (listOf 1 WantedProduct.read)

end Desk
end Stockroom
