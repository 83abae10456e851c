import Stockroom.Fault
import Stockroom.Field.Wording
import Stockroom.Json.Strict
import Stockroom.Order
import Stockroom.Product

/-! Replies to requests.
A fault of the business, and a bad value, has a reply with its wording and the time. Any other
fault is not told to the caller. What is wrong with a request is told with the values in
question; when these cannot be sent back, the reply says that instead. -/
namespace Stockroom
namespace Desk

inductive Content where
  | empty
  | data (x : Json)
  | plain (s : String)

structure Reply where
  status : Nat
  location : Option String := none
  allow : Option String := none
  content : Content := .empty

/- Successes -/

def productJson (p : Product) : Json :=
  .object [("code", .text p.code), ("name", .text p.name), ("stock_quantity", .integer p.stock),
    ("price_per_unit", .text p.price.toText), ("archived", .bool p.archived)]

def lineJson (l : OrderLine) : Json :=
  .object [("product_code", .text l.productCode), ("quantity", .integer l.quantity),
    ("unit_price", .text l.unitPrice.toText), ("total_price", .text l.totalPrice.toText)]

def orderJson (o : Order) : Json :=
  .object [("code", .text o.code), ("status", .text o.status.name),
    ("total_amount", .text o.totalAmount.toText), ("expires_at", .text o.expiresAt.toText),
    ("items", .array (o.lines.map lineJson))]

def healthJson : Json :=
  .object [("status", .text "ok"), ("service", .text "grocery-manager")]

def Reply.ok (x : Json) : Reply := { status := 200, content := .data x }

def Reply.created (x : Json) : Reply := { status := 201, content := .data x }

def Reply.done : Reply := { status := 204 }

/- Faults -/

/-- The status of the reply to a fault and its heading; none for a fault not to be told. -/
def heading? (f : Fault) : Option (Nat × String) :=
  match f.kind with
  | .productNotFound => some (404, "Product not found")
  | .orderNotFound => some (404, "Order not found")
  | .productAlreadyExists => some (409, "Product already exists")
  | .productDeletionConflict => some (409, "Product deletion error")
  | .concurrencyConflict => some (409, "Concurrent Modification")
  | .insufficientStock => some (400, "Insufficient stock")
  | .invalidOrderStatus => some (400, "Invalid order status")
  | .orderExpired => some (400, "Order expired")
  | .business => some (500, "Internal Server Error")
  | .badValue => some (400, "Bad Request")
  | .invalid => some (400, "Bad Request")
  | _ => none

/-- What a caller is told of a fault. Of contention only what to do about it. -/
def toldMessage (f : Fault) : String :=
  if f.kind = .concurrencyConflict then
    "The resource was modified by another user. Please refresh and try again."
  else f.message

def Reply.failed (now : Moment) (status : Nat) (heading message : String) : Reply :=
  { status, content := .data (.object [("status", .integer status), ("error", .text heading),
      ("message", .text message), ("timestamp", .text now.toText)]) }

def Reply.ofFault (now : Moment) (f : Fault) : Reply :=
  match heading? f with
  | some (status, heading) => .failed now status heading (toldMessage f)
  | none => { status := 500, content := .plain "Internal Server Error" }

/- Requests that cannot be understood -/

structure Complaint where
  issue : Issue
  given : Json

def valueAt : List Issue.Step → Json → Json
  | .key name :: rest, x => valueAt rest ((x.member? name).getD .null)
  | .index n :: rest, .array items => valueAt rest (items.getD n .null)
  | _, x => x

/-- A complaint about a part of a request: of a member that is missing, the value in question
is the object without it. -/
def Complaint.about (part : String) (x : Json) (i : Issue) : Complaint :=
  ⟨i.under (.key part), valueAt (if i.kind = .missing then i.place.dropLast else i.place) x⟩

def stepJson : Issue.Step → Json
  | .key name => .text name
  | .index n => .integer n

def Complaint.toJson (c : Complaint) : Json :=
  .object ([("type", .text c.issue.kind.name), ("loc", .array (c.issue.place.map stepJson)),
    ("msg", .text c.issue.kind.wording), ("input", c.given)] ++
    (if c.issue.kind.bounds.isEmpty then [] else [("ctx", .object c.issue.kind.bounds)]))

def Reply.remark (status : Nat) (remark : String) : Reply :=
  { status, content := .data (.object [("detail", .text remark)]) }

def Reply.refused (now : Moment) (complaints : List Complaint) : Reply :=
  let x : Json := .object [("detail", .array (complaints.map Complaint.toJson))]
  match x.writeFault? with
  | none => { status := 422, content := .data x }
  | some f => .failed now 400 "Bad Request" f.message

end Desk
end Stockroom
