import Stockroom.Desk.Address

namespace Stockroom
namespace Desk

inductive Action where
  | listProducts
  | createProduct
  | lookUpProduct (code : String)
  | updateProduct (code : String)
  | deleteProduct (code : String)
  | hasActiveOrders (code : String)
  | hasFinishedOrders (code : String)
  | createOrder
  | lookUpOrder (code : String)
  | payOrder (code : String)
  | cancelOrder (code : String)
  | reportHealth
  deriving DecidableEq, Repr

inductive Page where
  | products
  | product (code : String)
  | activeOrders (code : String)
  | finishedOrders (code : String)
  | orders
  | order (code : String)
  | payment (code : String)
  | cancellation (code : String)
  | health
  deriving DecidableEq, Repr

namespace Page

def endsWith (word : String) (part : List Char) : Bool :=
  part = word.toList || part = word.toList ++ ['\n']

def ofCode (kind : List Char) (code : String) : Option Page :=
  if kind = "products".toList then some (.product code)
  else if kind = "orders".toList then some (.order code)
  else none

def underCode (kind : List Char) (code : String) (last : List Char) : Option Page :=
  if kind = "products".toList then
    if endsWith "has-active-orders" last then some (.activeOrders code)
    else if endsWith "has-finished-orders" last then some (.finishedOrders code)
    else none
  else if kind = "orders".toList then
    if endsWith "pay" last then some (.payment code)
    else if endsWith "cancel" last then some (.cancellation code)
    else none
  else none

def ofParts? : List (List Char) → Option Page
  | [kind] =>
    if endsWith "products" kind then some .products
    else if endsWith "orders" kind then some .orders
    else none
  | [kind, code] => if code = [] then none else ofCode kind (String.ofList code)
  | [kind, code, last] => if code = [] then none else underCode kind (String.ofList code) last
  | _ => none

def ofPath? (path : List Char) : Option Page :=
  match path.splitOn '/' with
  | [[], last] => if endsWith "health" last then some .health else none
  | [] :: api :: version :: parts =>
    if api = "api".toList && version = "v1".toList then ofParts? parts else none
  | _ => none

def actions : Page → List (String × Action)
  | .products => [("GET", .listProducts), ("POST", .createProduct)]
  | .product code =>
    [("GET", .lookUpProduct code), ("PUT", .updateProduct code), ("DELETE", .deleteProduct code)]
  | .activeOrders code => [("GET", .hasActiveOrders code)]
  | .finishedOrders code => [("GET", .hasFinishedOrders code)]
  | .orders => [("POST", .createOrder)]
  | .order code => [("GET", .lookUpOrder code)]
  | .payment code => [("POST", .payOrder code)]
  | .cancellation code => [("POST", .cancelOrder code)]
  | .health => [("GET", .reportHealth)]

end Page

inductive Route where
  | page (p : Page)
  | elsewhere (location : String)
  | nowhere
  deriving DecidableEq, Repr

def Address.route (a : Address) : Route :=
  match Page.ofPath? a.path with
  | some p => .page p
  | none =>
    if (Page.ofPath? a.trimmedPath).isSome then .elsewhere (a.locationOf a.trimmedPath)
    else .nowhere

end Desk
end Stockroom
