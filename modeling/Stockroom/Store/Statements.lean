import Stockroom.Store.World

/-! Statements on the tables.
A statement is refused while somebody holds the lock. Whole numbers are stored with 64 bits;
one that does not fit is a fault, and so is a write that would break a rule of the tables.
Disruptions of a kind of step come before its statement. -/
namespace Stockroom

open scoped CorePower

namespace Service

variable {α β : Type}

def nested (x : Service α) : Service α := do
  turn
  atomically x

def fits64 (n : Int) : Bool := -(2 ^ (63 : Nat)) ≤ n && n < 2 ^ (63 : Nat)

def turnWith (numbers : List Int) : Service Unit := do
  turn
  if !numbers.all fits64 then throw .beyond64

def query (numbers : List Int) (read : Tables → α) : Service α := do
  turnWith numbers
  return read (← get).tables

def change (f : Tables → Except Violation (α × Tables)) : Service α := fun w =>
  match f w.tables with
  | .ok (a, t) => .ok a { w with tables := t }
  | .error v => .error (.violated v) w

def command (numbers : List Int) (f : Tables → Except Violation (α × Tables)) : Service α := do
  turnWith numbers
  change f

def silent (f : Tables → Except Violation Tables) (t : Tables) : Except Violation (Unit × Tables) :=
  (f t).map ((), ·)

/- Products -/

def productOf : Option ProductRow → Service (Option Product)
  | none => pure none
  | some r => some <$> ofExcept r.toProduct

def productWithCode (code : String) : Service (Option Product) := do
  productOf (← query [] (·.product? code))

def lockProduct (code : String) : Service (Option Product) := do
  refuse (← disruption none (·.rowLocks) fun d l => { d with rowLocks := l })
  productOf (← query [] (·.activeProduct? code))

def writeStock (code : String) (quantity : Int) (now : Moment) : Service Unit :=
  command [quantity] (silent fun t => t.setStock code quantity now)

def swapCatalog (code : String) (version : Int) (name : String) (price : Decimal) (now : Moment) :
    Service Bool := do
  if ← disruption false (·.lostSwaps) fun d l => { d with lostSwaps := l } then return false
  command [version] fun t => t.swapCatalog code version name price now

def insertProduct (code name : String) (stock : Int) (price : Decimal) : Service Product := do
  command [stock] (silent fun t => t.insertProduct code name stock price)
  if price.isFinite then return { code, name, stock, price }
  else throw (.notFinite "Product" [("price_per_unit", price)])

def productExists (code : String) (archived : Option Bool) : Service Bool := do
  if ← disruption false (·.unseen) fun d l => { d with unseen := l } then return false
  query [] fun t => t.products.any fun r => r.code = code && archived.all (· = r.archived)

def productsByName (onlyActive : Bool) : Service (List Product) := do
  ofExcept ((← query [] (·.listed onlyActive)).mapM (·.toProduct))

def archiveProduct (code : String) (now : Moment) : Service Unit :=
  command [] fun t => .ok ((), t.archive code now)

def removeProduct (code : String) : Service Unit :=
  command [] (silent fun t => t.removeProduct code)

def hasOrdersIn (code : String) (statuses : List OrderStatus) : Service Bool :=
  query [] (·.hasOrdersIn code statuses)

/- Orders -/

def ordersOf (rows : List OrderRow) : Service (List Order) := do
  let lineRows ← query [] fun t => rows.map fun r => t.linesOf r.id
  let lines ← ofExcept (lineRows.mapM (·.mapM (·.toLine)))
  ofExcept ((rows.zip lines).mapM fun (r, ls) => r.toOrder ls)

def orderWithCode (code : String) : Service (Option Order) := do
  match ← query [] (·.orderWithCode? code) with
  | none => return none
  | some r => return (← ordersOf [r]).head?

/-- All the ids are parameters of one statement; when they are more than the engine takes, that
is a refusal by it, one of the disruptions. -/
def ordersWithIds (ids : List Int) : Service (List Order) := do
  if ids.isEmpty then return []
  ordersOf (← query ids (·.ordersWithIds ids))

def orderWithId (id : Int) : Service (Option Order) := return (← ordersWithIds [id]).head?

def orderStatus (id : Int) : Service (Option OrderStatus) :=
  query [id] fun t => (t.orderWithId? id).map (·.status)

/-- The lines of an order, inserted one after another by one statement; those before a fault
are in the tables. -/
def insertLines (id : Int) (lines : List OrderLine) : Service Unit := do
  turn
  if lines.isEmpty then throw (.violated (.missingValue "order_items.order_id"))
  lines.forM fun line => do
    if fits64 line.quantity then change (silent fun t => t.insertLine id line)
    else throw .beyond64

def insertOrder (code : String) (total : Decimal) (expiresAt : Moment) (lines : List OrderLine)
    (now : Moment) : Service Order := do
  let id ← command [] fun t => t.insertOrder code total expiresAt now
  insertLines id lines
  if total.isFinite then return ⟨id, code, .pending, total, expiresAt, now, none, lines⟩
  else throw (.notFinite "Order" [("total_amount", total)])

def moveOrder (id : Int) (expected target : OrderStatus) (now : Moment) : Service Bool :=
  command [id] fun t => .ok (t.moveStatus id expected target now)

def moveStatus (id : Int) (expected target : OrderStatus) (now : Moment) : Service Bool := do
  match ← disruption none (·.steals) fun d l => { d with steals := l } with
  | some stolen => let _ ← moveOrder id expected stolen now
  | none => pure ()
  moveOrder id expected target now

def idsTouchedWithin (lower upper : Moment) (statuses : List OrderStatus) (limit : Int) :
    Service (List Int) :=
  query [limit] (·.idsTouchedWithin lower upper statuses limit)

end Service
end Stockroom
