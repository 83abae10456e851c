import Stockroom.Fault
import Stockroom.Time.Moment

namespace Stockroom

inductive OrderStatus where
  | pending
  | paid
  | canceled
  | expired
  deriving DecidableEq, Repr

namespace OrderStatus

def name : OrderStatus → String
  | .pending => "PENDING"
  | .paid => "PAID"
  | .canceled => "CANCELED"
  | .expired => "EXPIRED"

def all : List OrderStatus := [.pending, .paid, .canceled, .expired]

def read (word : String) : Except Fault OrderStatus :=
  match all.find? (·.name = word) with
  | some s => .ok s
  | none => .error (.unknownStatus word)

def isTerminal (s : OrderStatus) : Bool := s ≠ .pending

/-- The states in which an order holds its stock. -/
def active : List OrderStatus := [.pending, .paid]

/-- The states in which an order has given its stock back. -/
def finished : List OrderStatus := [.canceled, .expired]

end OrderStatus

structure OrderLine where
  productCode : String
  quantity : Int
  unitPrice : Decimal
  totalPrice : Decimal
  deriving DecidableEq, Repr

structure Order where
  id : Int
  code : String
  status : OrderStatus
  totalAmount : Decimal
  expiresAt : Moment
  createdAt : Moment
  updatedAt : Option Moment
  lines : List OrderLine
  deriving DecidableEq

def isOverdue (now expiresAt : Moment) : Bool := decide (expiresAt < now)

def isDue (status : OrderStatus) (now expiresAt : Moment) : Bool :=
  !status.isTerminal && isOverdue now expiresAt

namespace Order

def isDue (o : Order) (now : Moment) : Bool := Stockroom.isDue o.status now o.expiresAt

end Order
end Stockroom
