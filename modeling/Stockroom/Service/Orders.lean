import Stockroom.Service.Stock
import Stockroom.Totals

/-! Orders from their creation to their end.
A new order reserves stock for every line; the reservations and the order are stored together
or not at all. An order leaves the pending state by one guarded change of its row, whoever
asks for it, and only who makes that change gives stock back. An attempt to pay or cancel an
overdue order expires it: that is stored, and the attempt fails afterwards. -/
namespace Stockroom
namespace Service

/- Creation -/

def reserveLine (s : Settings.Attempts) (code : String) (quantity : Int) : Service OrderLine := do
  let p ← noting .orders
    (fun f => s!"Error while reserving {quantity} units in stock for product {code}: {f.message}. " ++
      "Rolling back order creation.")
    (reserve s code quantity)
  let total ← ofExcept ((lineTotal quantity p.price).mapError .arithmetic)
  ofExcept (OrderLine.check code quantity p.price total)

def nextOrderCode : Service String :=
  modifyGet fun w => (s!"order-{w.codesGiven + 1}", { w with codesGiven := w.codesGiven + 1 })

def placeOrder (s : Settings) (wanted : List (String × Int)) : Service Order := do
  let lines ← wanted.mapM fun (code, quantity) => reserveLine s.attempts code quantity
  let now ← now
  let code ← nextOrderCode
  let total ← ofExcept ((orderTotal (lines.map (some ·.totalPrice))).mapError .arithmetic)
  insertOrder code total (← later now s.expiry.orderTtl) lines now

def createOrder (s : Settings) (wanted : List (String × Int)) : Service Order := do
  if wanted.isEmpty then throw .emptyOrder
  let order ← atomically (placeOrder s wanted)
  dropSnapshots (wanted.map (·.1))
  note .orders .info ("Created order with id: " ++ toString order.id ++ ", code: " ++ order.code ++
    ", totalAmount: " ++ order.totalAmount.toText)
  return order

/- Leaving the pending state -/

def orderOf (code : String) : Service Order := do
  match ← orderWithCode code with
  | none => throw (.orderNotFound code)
  | some order => return order

def releaseLines (s : Settings.Attempts) (order : Order) : Service Unit :=
  order.lines.forM fun line => noting .orders
    (fun f => s!"Error while releasing {line.quantity} units of product {line.productCode} " ++
      s!"for order {order.code}: {f.message}")
    (release s line.productCode line.quantity)

/-- Expires a pending order and gives its stock back; false if somebody was faster. -/
def expireNow (s : Settings.Attempts) (order : Order) : Service Bool := do
  if ← moveStatus order.id .pending .expired (← now) then
    releaseLines s order
    note .orders .info s!"Expired order with code: {order.code}"
    return true
  else
    note .orders .info s!"Order {order.code} already left PENDING, skipping expiry"
    return false

def alreadyExpired (code remark : String) : Fault :=
  .orderExpired s!"Order {code} has already expired. {remark}"

def statusName (status : Option OrderStatus) : String := (status.map (·.name)).getD ""

/-- Expires an order that is due, as it was read before; true if this step expired it. A
fault when it is expired already or when it left the pending state otherwise. -/
def checkExpiry (s : Settings.Attempts) (order : Order) (remark : String) : Service Bool := do
  if order.status = .expired then throw (alreadyExpired order.code remark)
  if !order.isDue (← now) then return false
  if ← expireNow s order then return true
  let status ← orderStatus order.id
  if status = some .expired then throw (alreadyExpired order.code remark)
  throw (.invalidOrderStatus
    s!"Order {order.code} is no longer pending. Current status: {statusName status}")

def cannotBe (code verb status : String) : Fault :=
  .invalidOrderStatus s!"Order {code} cannot be {verb}. Current status: {status}"

def settle (order : Order) (target : OrderStatus) (verb : String) : Service Order := do
  if order.status.isTerminal then throw (cannotBe order.code verb order.status.name)
  let now ← now
  if ← moveStatus order.id .pending target now then
    return { order with status := target, updatedAt := some now }
  else
    throw (cannotBe order.code verb (statusName (← orderStatus order.id)))

inductive Exit where
  | pay
  | cancel
  deriving DecidableEq, Repr

namespace Exit

def target : Exit → OrderStatus
  | .pay => .paid
  | .cancel => .canceled

def verb : Exit → String
  | .pay => "paid"
  | .cancel => "canceled"

def remark : Exit → String
  | .pay => "Cannot pay expired order"
  | .cancel => "Cannot cancel expired order"

def entry : Exit → String
  | .pay => "Paid order with code: "
  | .cancel => "Canceled order with code: "

end Exit

/-- The stored part of an exit, on an order as it was read before: true with the order as it
was if it expired, false with the order as it is now if it was settled. -/
def exitFrom (s : Settings.Attempts) (exit : Exit) (order : Order) : Service (Bool × Order) := do
  if ← checkExpiry s order exit.remark then return (true, order)
  let settled ← settle order exit.target exit.verb
  if exit = .cancel then releaseLines s settled
  return (false, settled)

def leavePending (s : Settings.Attempts) (exit : Exit) (code : String) : Service Order := do
  let (expired, order) ← atomically do exitFrom s exit (← orderOf code)
  if expired || exit = .cancel then dropSnapshots (order.lines.map (·.productCode))
  if expired then throw (.orderExpired s!"Order {code} has expired. {exit.remark}")
  note .orders .info (exit.entry ++ code)
  return order

def payOrder (s : Settings.Attempts) (code : String) : Service Order := leavePending s .pay code

def cancelOrder (s : Settings.Attempts) (code : String) : Service Order :=
  leavePending s .cancel code

/- Expiry -/

def expiryDisruption (id : Int) : Service (Option ExpiryDisruption) :=
  modifyGet fun w =>
    (w.disruptions.expiries.lookup id,
      { w with disruptions :=
        { w.disruptions with expiries := w.disruptions.expiries.filter (·.1 ≠ id) } })

def disruptExpiry (id : Int) : Service Unit := do
  match ← expiryDisruption id with
  | none => pure ()
  | some .fails => throw (.broken "store went away")
  | some (.moved target) => let _ ← atomically (moveOrder id .pending target (← now))

/-- Expires an order, as it was read before, if it is due; true if this step expired it. -/
def expireDue (s : Settings.Attempts) (order : Order) : Service Bool := do
  if !order.isDue (← now) then return false
  expireNow s order

/-- The stored part of an expiry: the order, if it was due and this step expired it. -/
def expireIfDue (s : Settings.Attempts) (id : Int) : Service (Option Order) := do
  match ← orderWithId id with
  | none => return none
  | some order => if ← expireDue s order then return some order else return none

def expireOrder (s : Settings.Attempts) (id : Int) : Service Bool := do
  disruptExpiry id
  match ← atomically (expireIfDue s id) with
  | none => return false
  | some order =>
    dropSnapshots (order.lines.map (·.productCode))
    return true

end Service
end Stockroom
