import Stockroom.Service.Stock

namespace Stockroom
namespace Service

def asTaken (code : String) : Fault → Fault
  | .violated _ => .productAlreadyExists code
  | f => f

def createProduct (code name : String) (stock : Int) (price : Decimal) : Service Product := do
  if stock < 0 then throw .negativeStock
  let p ← atomically do
    if ← productExists code none then throw (.productAlreadyExists code)
    mapFault (asTaken code) (insertProduct code name stock price)
  note .assortment .info s!"Created product with code: {code}"
  return p

def updateProduct (s : Settings.Attempts) (code name : String) (price : Decimal)
    (stock : Option Int) : Service Product := do
  let p ← atomically do
    let p ← describe s code name price
    match stock with
    | none => return p
    | some quantity => return { p with stock := (← setStock s code quantity).stock }
  dropSnapshot code
  note .assortment .info s!"Updated product with code: {code}"
  return p

inductive Deletion where
  | archived
  | removed
  deriving DecidableEq, Repr

def Deletion.verb : Deletion → String
  | .archived => "Archived"
  | .removed => "Deleted"

def deleteProduct (code : String) : Service Deletion := do
  let deletion ← atomically do
    if (← mapFault (Fault.asConflict code) (lockProduct code)).isNone then
      throw (.productNotFound code)
    if ← hasOrdersIn code OrderStatus.active then throw (.productDeletionConflict code)
    if ← hasOrdersIn code OrderStatus.finished then
      archiveProduct code (← now)
      return .archived
    else
      removeProduct code
      return .removed
  dropSnapshot code
  note .assortment .info s!"{deletion.verb} product with code: {code}"
  return deletion

/-- The product of a code, archived or not, from its snapshot if there is one. -/
def lookUpProduct (code : String) : Service Product := do
  match ← snapshot code with
  | some p => return p
  | none =>
    match ← productWithCode code with
    | none => throw (.productNotFound code)
    | some p =>
      keepSnapshot p
      return p

def productHasOrdersIn (code : String) (statuses : List OrderStatus) : Service Bool := do
  if ← productExists code none then hasOrdersIn code statuses
  else throw (.productNotFound code)

def hasActiveOrders (code : String) : Service Bool := productHasOrdersIn code OrderStatus.active

def hasFinishedOrders (code : String) : Service Bool :=
  productHasOrdersIn code OrderStatus.finished

end Service
end Stockroom
