import Stockroom.Store.Statements

/-! Writing stock and descriptions.
Stock is written under a lock on the product's row: the new stock is computed from the locked
row, so it sees every earlier write. A description is written only if the product still has
the version that was read. Either write is undone alone when its attempt fails, and may be
tried again; after it the product's snapshot is dropped. -/
namespace Stockroom
namespace Service

def writeLocked (code : String) (compute : Product → Except Fault Int) : Service Product := do
  match ← lockProduct code with
  | none => throw (.productNotFound code)
  | some p =>
    let quantity ← ofExcept (compute p)
    writeStock code quantity (← now)
    return { p with stock := quantity }

def stockAttempt (code : String) (compute : Product → Except Fault Int) : Service Product :=
  mapFault (Fault.asConflict code) (nested (writeLocked code compute))

/-- A new stock, computed from the stock at hand; a fault of `compute` calls it off. -/
def mutateStock (s : Settings.Attempts) (code : String) (compute : Product → Except Fault Int) :
    Service Product := do
  let p ← retrying s (stockAttempt code compute)
  dropSnapshot code
  return p

def taking (quantity : Int) (p : Product) : Except Fault Int :=
  if p.stock < quantity then .error (.insufficientStock p.code p.stock quantity)
  else .ok (p.stock - quantity)

def reserve (s : Settings.Attempts) (code : String) (quantity : Int) : Service Product := do
  if quantity ≤ 0 then throw (.nothingRequested code)
  let p ← mutateStock s code (taking quantity)
  note .stock .info s!"Reserved {quantity} units of product {code}. Current stock: {p.stock}"
  return p

def release (s : Settings.Attempts) (code : String) (quantity : Int) : Service Unit := do
  if quantity ≤ 0 then throw (.nothingReleased code)
  let p ← mutateStock s code fun p => .ok (p.stock + quantity)
  note .stock .info s!"Released {quantity} units of product {code}. Current stock: {p.stock}"

def setStock (s : Settings.Attempts) (code : String) (quantity : Int) : Service Product := do
  if quantity < 0 then throw .negativeStock
  mutateStock s code fun _ => .ok quantity

def writeDescription (code name : String) (price : Decimal) : Service Product := do
  match ← productWithCode code with
  | none => throw (.productNotFound code)
  | some p =>
    if p.archived then throw (.productNotFound code)
    if ← swapCatalog code p.version name price (← now) then
      return { p with name, price, version := p.version + 1 }
    else throw (.changedElsewhere code)

def describeAttempt (code name : String) (price : Decimal) : Service Product :=
  mapFault (Fault.asConflict code) (nested (writeDescription code name price))

def describe (s : Settings.Attempts) (code name : String) (price : Decimal) : Service Product := do
  let p ← retrying s (describeAttempt code name price)
  dropSnapshot code
  return p

end Service
end Stockroom
