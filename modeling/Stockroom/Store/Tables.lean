import Stockroom.Order
import Stockroom.Product
import Stockroom.Store.Amount

/-! The tables: products, orders and the lines of orders.
Rows stand in the order of their insertion. A product's code, archived or not, and an order's
code are each unique; stock is never negative, a line names an existing product and has a
quantity of at least one. A write that would break a rule is refused and changes nothing. -/
namespace Stockroom

structure ProductRow where
  code : String
  name : String
  stock : Int
  price : Amount
  archived : Bool
  version : Int
  updatedAt : Option Moment
  deriving DecidableEq

structure OrderRow where
  id : Int
  code : String
  status : OrderStatus
  total : Amount
  expiresAt : Moment
  createdAt : Moment
  version : Int
  updatedAt : Option Moment
  deriving DecidableEq

structure LineRow where
  orderId : Int
  productCode : String
  quantity : Int
  unitPrice : Amount
  totalPrice : Amount
  deriving DecidableEq

structure Tables where
  products : List ProductRow := []
  orders : List OrderRow := []
  lines : List LineRow := []
  deriving DecidableEq

namespace ProductRow

def isAt (r : ProductRow) (code : String) (version : Int) : Bool :=
  r.code = code && !r.archived && r.version = version

def toProduct (r : ProductRow) : Except Fault Product :=
  let price := r.price.read
  if price.isFinite then .ok ⟨r.code, r.name, r.stock, price, r.archived, r.version⟩
  else .error (.notFinite "Product" [("price_per_unit", price)])

end ProductRow

namespace OrderLine

def check (code : String) (quantity : Int) (unit total : Decimal) : Except Fault OrderLine :=
  match [("unit_price", unit), ("total_price", total)].filter fun f => !f.2.isFinite with
  | [] => .ok ⟨code, quantity, unit, total⟩
  | wrong => .error (.notFinite "OrderItem" wrong)

end OrderLine

namespace LineRow

def toLine (r : LineRow) : Except Fault OrderLine :=
  OrderLine.check r.productCode r.quantity r.unitPrice.read r.totalPrice.read

end LineRow

namespace OrderRow

def touchedAt (r : OrderRow) : Moment := r.updatedAt.getD r.createdAt

def toOrder (r : OrderRow) (lines : List OrderLine) : Except Fault Order :=
  let total := r.total.read
  if total.isFinite then
    .ok ⟨r.id, r.code, r.status, total, r.expiresAt, r.createdAt, r.updatedAt, lines⟩
  else .error (.notFinite "Order" [("total_amount", total)])

end OrderRow

namespace Tables

/- Products -/

def product? (t : Tables) (code : String) : Option ProductRow := t.products.find? (·.code = code)

def activeProduct? (t : Tables) (code : String) : Option ProductRow :=
  t.products.find? fun r => r.code = code && !r.archived

def updateProduct (t : Tables) (code : String) (f : ProductRow → ProductRow) : Tables :=
  { t with products := t.products.map fun r => if r.code = code then f r else r }

def setStock (t : Tables) (code : String) (quantity : Int) (now : Moment) :
    Except Violation Tables :=
  if (t.product? code).isSome && quantity < 0 then .error .negativeStock
  else .ok (t.updateProduct code fun r => { r with stock := quantity, updatedAt := some now })

/-- A new name and price for a product that is active and has an expected version; true if
there was one. -/
def swapCatalog (t : Tables) (code : String) (version : Int) (name : String) (price : Decimal)
    (now : Moment) : Except Violation (Bool × Tables) :=
  if t.products.any fun r => r.isAt code version then
    match Amount.ofDecimal? price with
    | none => .error (.missingValue "products.price_per_unit")
    | some amount =>
      .ok (true, t.updateProduct code fun r =>
        if r.isAt code version then
          { r with name, price := amount, version := r.version + 1, updatedAt := some now }
        else r)
  else .ok (false, t)

def insertProduct (t : Tables) (code name : String) (stock : Int) (price : Decimal) :
    Except Violation Tables :=
  match Amount.ofDecimal? price with
  | none => .error (.missingValue "products.price_per_unit")
  | some amount =>
    if stock < 0 then .error .negativeStock
    else if (t.product? code).isSome then .error .productCodeTaken
    else .ok { t with products := t.products ++ [⟨code, name, stock, amount, false, 0, none⟩] }

def archive (t : Tables) (code : String) (now : Moment) : Tables :=
  t.updateProduct code fun r =>
    { r with archived := true, version := r.version + 1, updatedAt := some now }

def removeProduct (t : Tables) (code : String) : Except Violation Tables :=
  if (t.product? code).isSome && t.lines.any (·.productCode = code) then .error .productHasLines
  else .ok { t with products := t.products.filter (·.code ≠ code) }

/-- The order of the list of products: by name, then by code, character by character. -/
def listsBefore (a b : ProductRow) : Bool :=
  decide (a.name < b.name) || (a.name = b.name && decide (a.code ≤ b.code))

def listed (t : Tables) (onlyActive : Bool) : List ProductRow :=
  (t.products.filter fun r => !(onlyActive && r.archived)).mergeSort listsBefore

def hasOrdersIn (t : Tables) (code : String) (statuses : List OrderStatus) : Bool :=
  t.lines.any fun l => l.productCode = code &&
    t.orders.any fun o => o.id = l.orderId && statuses.contains o.status

/- Orders -/

def orderWithCode? (t : Tables) (code : String) : Option OrderRow :=
  t.orders.find? (·.code = code)

def orderWithId? (t : Tables) (id : Int) : Option OrderRow := t.orders.find? (·.id = id)

def ordersWithIds (t : Tables) (ids : List Int) : List OrderRow :=
  (t.orders.filter fun r => ids.contains r.id).mergeSort fun a b => decide (a.id ≤ b.id)

def linesOf (t : Tables) (id : Int) : List LineRow := t.lines.filter (·.orderId = id)

def nextId (t : Tables) : Int := (t.orders.map (·.id)).foldl max 0 + 1

def insertOrder (t : Tables) (code : String) (total : Decimal) (expiresAt now : Moment) :
    Except Violation (Int × Tables) :=
  match Amount.ofDecimal? total with
  | none => .error (.missingValue "orders.total_amount")
  | some amount =>
    if (t.orderWithCode? code).isSome then .error .orderCodeTaken
    else
      let row : OrderRow := ⟨t.nextId, code, .pending, amount, expiresAt, now, 0, none⟩
      .ok (t.nextId, { t with orders := t.orders ++ [row] })

def insertLine (t : Tables) (id : Int) (line : OrderLine) : Except Violation Tables :=
  match Amount.ofDecimal? line.unitPrice, Amount.ofDecimal? line.totalPrice with
  | none, _ => .error (.missingValue "order_items.unit_price")
  | _, none => .error (.missingValue "order_items.total_price")
  | some unit, some total =>
    if line.quantity < 1 then .error .quantityBelowOne
    else if (t.product? line.productCode).isNone then .error .unknownProduct
    else .ok { t with lines := t.lines ++ [⟨id, line.productCode, line.quantity, unit, total⟩] }

def moveStatus (t : Tables) (id : Int) (expected target : OrderStatus) (now : Moment) :
    Bool × Tables :=
  let isMoved (r : OrderRow) : Bool := r.id = id && r.status = expected
  (t.orders.any isMoved,
    { t with orders := t.orders.map fun r =>
        if isMoved r then
          { r with status := target, version := r.version + 1, updatedAt := some now }
        else r })

/-- The ids of the orders in one of the states whose last change lies between two moments,
ends included, ascending, `limit` of them at most. Moments are compared in their stored form;
a negative limit is none. -/
def idsTouchedWithin (t : Tables) (lower upper : Moment) (statuses : List OrderStatus)
    (limit : Int) : List Int :=
  let isHit (r : OrderRow) : Bool :=
    decide (lower.toStored ≤ r.touchedAt.toStored) &&
      decide (r.touchedAt.toStored ≤ upper.toStored) && statuses.contains r.status
  let ids := ((t.orders.filter isHit).map (·.id)).mergeSort
  if limit < 0 then ids else ids.take limit.toNat

end Tables
end Stockroom
