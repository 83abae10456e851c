import Stockroom.Field.Issue
import Stockroom.Number.Context
import Stockroom.Text.Quoted

/-! Why a request to the service fails.
A fault names its cause; its wording is `Fault.message`. Faults of the business itself come
first: unknown or taken codes, orders in the wrong state, stock that is not there, contention.
After them come bad arguments, arithmetic without a result and refusals by the tables. -/
namespace Stockroom

/-- A statement that the engine of the tables refuses: because of somebody else, such as a lock
that is held, or because it cannot take the statement, such as one with more parameters than it
allows. -/
structure Refusal where
  message : String
  sqlstate : Option String := none
  pgcode : Option String := none
  /-- The refusal in the words of the layer over the engine. -/
  text : String := message
  deriving DecidableEq, Repr

inductive Violation where
  | negativeStock
  | quantityBelowOne
  | productCodeTaken
  | orderCodeTaken
  | unknownProduct
  | productHasLines
  | missingValue (column : String)
  deriving DecidableEq, Repr

inductive Fault where
  | productNotFound (code : String)
  | productAlreadyExists (code : String)
  | productDeletionConflict (code : String)
  | insufficientStock (code : String) (available requested : Int)
  | orderNotFound (code : String)
  | invalidOrderStatus (text : String)
  | orderExpired (text : String)
  /-- Somebody else holds the row or changed it first. -/
  | concurrencyConflict (text : String)
  | business (text : String)
  | badValue (text : String)
  | outOfRange (text : String)
  | broken (text : String)
  | wrongType (text : String)
  /-- Values read back as amounts that are not finite. -/
  | notFinite (subject : String) (fields : List (String × Decimal))
  | invalid (issues : List Issue)
  | arithmetic (cause : ArithmeticFault)
  | refused (r : Refusal)
  | violated (v : Violation)
  | badAddress
  deriving DecidableEq, Repr

namespace Fault

inductive Kind where
  | productNotFound
  | productAlreadyExists
  | productDeletionConflict
  | insufficientStock
  | orderNotFound
  | invalidOrderStatus
  | orderExpired
  | concurrencyConflict
  | business
  | badValue
  | outOfRange
  | broken
  | wrongType
  | invalid
  | invalidOperation
  | overflow
  | refused
  | violated
  | badAddress
  deriving DecidableEq, Repr

def kind : Fault → Kind
  | .productNotFound _ => .productNotFound
  | .productAlreadyExists _ => .productAlreadyExists
  | .productDeletionConflict _ => .productDeletionConflict
  | .insufficientStock .. => .insufficientStock
  | .orderNotFound _ => .orderNotFound
  | .invalidOrderStatus _ => .invalidOrderStatus
  | .orderExpired _ => .orderExpired
  | .concurrencyConflict _ => .concurrencyConflict
  | .business _ => .business
  | .badValue _ => .badValue
  | .outOfRange _ => .outOfRange
  | .broken _ => .broken
  | .wrongType _ => .wrongType
  | .notFinite .. => .invalid
  | .invalid _ => .invalid
  | .arithmetic .invalidOperation => .invalidOperation
  | .arithmetic .overflow => .overflow
  | .refused _ => .refused
  | .violated _ => .violated
  | .badAddress => .badAddress

def Kind.all : List Kind :=
  [.productNotFound, .productAlreadyExists, .productDeletionConflict, .insufficientStock,
    .orderNotFound, .invalidOrderStatus, .orderExpired, .concurrencyConflict, .business,
    .badValue, .outOfRange, .broken, .wrongType, .invalid, .invalidOperation, .overflow,
    .refused, .violated, .badAddress]

def Kind.name : Kind → String
  | .productNotFound => "ProductNotFound"
  | .productAlreadyExists => "ProductAlreadyExists"
  | .productDeletionConflict => "ProductDeletionConflict"
  | .insufficientStock => "InsufficientStock"
  | .orderNotFound => "OrderNotFound"
  | .invalidOrderStatus => "InvalidOrderStatus"
  | .orderExpired => "OrderExpired"
  | .concurrencyConflict => "ConcurrencyConflict"
  | .business => "GroceryError"
  | .badValue => "ValueError"
  | .outOfRange => "OverflowError"
  | .broken => "RuntimeError"
  | .wrongType => "TypeError"
  | .invalid => "ValidationError"
  | .invalidOperation => "InvalidOperation"
  | .overflow => "Overflow"
  | .refused => "OperationalError"
  | .violated => "IntegrityError"
  | .badAddress => "ArgumentError"

def Kind.ofName? (s : String) : Option Kind := Kind.all.find? (·.name = s)

def Kind.isBusiness : Kind → Bool
  | .productNotFound | .productAlreadyExists | .productDeletionConflict | .insufficientStock
  | .orderNotFound | .invalidOrderStatus | .orderExpired | .concurrencyConflict
  | .business => true
  | _ => false

/-- True when faults of the second kind count as faults of the first: every business fault is
a `business` fault, and an invalid value is a bad value. -/
def Kind.covers (general special : Kind) : Bool :=
  general = special || (general = .business && special.isBusiness) ||
    (general = .badValue && special = .invalid)

def notFiniteText (subject : String) (fields : List (String × Decimal)) : String :=
  let count := if fields.length = 1 then "1 validation error"
    else toString fields.length ++ " validation errors"
  let item (f : String × Decimal) : String :=
    "\n" ++ f.1 ++ "\n  Input should be a finite number [type=finite_number, input_value=Decimal('" ++
      f.2.toText ++ "'), input_type=Decimal]"
  count ++ " for " ++ subject ++ String.join (fields.map item)

def violationText : Violation → String
  | .negativeStock => "CHECK constraint failed: ck_products_stock_non_negative"
  | .quantityBelowOne => "CHECK constraint failed: ck_order_items_quantity_positive"
  | .productCodeTaken => "UNIQUE constraint failed: products.code"
  | .orderCodeTaken => "UNIQUE constraint failed: orders.code"
  | .unknownProduct => "FOREIGN KEY constraint failed"
  | .productHasLines => "FOREIGN KEY constraint failed"
  | .missingValue column => "NOT NULL constraint failed: " ++ column

def message : Fault → String
  | .productNotFound code => s!"Product not found with code: {code}"
  | .productAlreadyExists code => s!"Product with code {code} already exists"
  | .productDeletionConflict code => s!"Cannot delete product {code} with active orders"
  | .insufficientStock code available requested =>
    s!"Insufficient stock for product {code}. Available: {available}, Requested: {requested}"
  | .orderNotFound code => s!"Order not found with code: {code}"
  | .invalidOrderStatus text => text
  | .orderExpired text => text
  | .concurrencyConflict text => text
  | .business text => text
  | .badValue text => text
  | .outOfRange text => text
  | .broken text => text
  | .wrongType text => text
  | .notFinite subject fields => notFiniteText subject fields
  | .invalid _ => ""
  | .arithmetic .invalidOperation => "[<class 'decimal.InvalidOperation'>]"
  | .arithmetic .overflow => "[<class 'decimal.Overflow'>]"
  | .refused r => r.text
  | .violated v => violationText v
  | .badAddress => "The address of the tables cannot be read"

def issues : Fault → List Issue
  | .notFinite _ fields => fields.map fun f => ⟨[.key f.1], .finiteNumber⟩
  | .invalid issues => issues
  | _ => []

/- Bad arguments, by what is wrong with them -/

def unknownStatus (word : String) : Fault :=
  .badValue (Text.quoted word ++ " is not a valid OrderStatus")

def batchTooSmall : Fault := .badValue "Batch size must be at least 1"

def negativeStock : Fault := .badValue "Stock quantity must be non-negative"

def emptyOrder : Fault := .badValue "Order must contain at least one item"

def missingAmount : Fault := .badValue "Quantity and unit price must not be None"

def nothingRequested (code : String) : Fault :=
  .badValue s!"Requested quantity must be greater than zero for product: {code}"

def nothingReleased (code : String) : Fault :=
  .badValue s!"Quantity to release must be greater than zero for product: {code}"

/- Values beyond a range -/

def beyond64 : Fault := .outOfRange "Python int too large to convert to SQLite INTEGER"

def beyondCalendar : Fault := .outOfRange "date value out of range"

def beyondFraction : Fault := .outOfRange "int too large to convert to float"

def powerTooLarge : Fault := .outOfRange "(34, 'Numerical result out of range')"

/- Contention -/

def lockedElsewhere (code : String) : Fault :=
  .concurrencyConflict s!"Product {code} is locked by another transaction"

def changedElsewhere (code : String) : Fault :=
  .concurrencyConflict s!"Product {code} was modified concurrently"

end Fault
end Stockroom
