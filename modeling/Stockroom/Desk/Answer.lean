import Stockroom.Desk.Form
import Stockroom.Desk.Page
import Stockroom.Desk.Reply
import Stockroom.Service.Assortment
import Stockroom.Service.Orders

/-! Answering requests.
The path leads to a page and the method to its action. An action that needs a body reads it
first and touches nothing when the body is wrong. Every request has a reply, whatever goes
wrong on the way. -/
namespace Stockroom
namespace Desk

structure Request where
  method : String
  target : String
  body : String := ""
  contentType : String := ""
  deriving DecidableEq, Repr

/- Bodies -/

inductive Body where
  | absent
  | data (x : Json)
  /-- A body that is not declared to be data. -/
  | undeclared (s : String)
  /-- The data stop making sense at a character. -/
  | malformed (position : Nat)
  /-- The data are beyond what is read. -/
  | unreadable

def declaresData (contentType : String) : Bool :=
  let cs := Text.trim Text.isSpacing (contentType.toList.takeWhile (· ≠ ';'))
  match (cs.map Char.toLower).splitOn '/' with
  | [main, sub] =>
    main = "application".toList && (sub = "json".toList || "+json".toList.isSuffixOf sub)
  | _ => false

def bodyDialect : Json.Dialect := ⟨940, true⟩

def withoutMark (s : String) : String :=
  match s.toList with
  | '\uFEFF' :: rest => String.ofList rest
  | _ => s

namespace Request

def content (r : Request) : Body :=
  if r.body = "" then .absent
  else if !declaresData r.contentType then .undeclared r.body
  else match Json.read bodyDialect (withoutMark r.body) with
    | .ok x => .data x
    | .error (.malformed position) => .malformed position
    | .error _ => .unreadable

end Request

/- Actions -/

def refuse (complaints : List Complaint) : Service Reply :=
  return .refused (← Service.now) complaints

def withBody {α : Type} (r : Request) (read : Field.Reader α) (act : α → Service Reply) :
    Service Reply :=
  match r.content with
  | .absent => refuse [⟨⟨[.key "body"], .missing⟩, .null⟩]
  | .malformed position =>
    refuse [⟨⟨[.key "body", .index position], .jsonInvalid⟩, .object []⟩]
  | .unreadable => return .remark 400 "There was an error parsing the body"
  | .undeclared s => refuse [⟨⟨[.key "body"], .modelAttributesType⟩, .text s⟩]
  | .data x =>
    match read x with
    | .accepted a => act a
    | .refused issues => refuse (issues.map (.about "body" x))

def listProducts (a : Address) : Service Reply :=
  match a.parameter? "only_active" with
  | none => list true
  | some s =>
    match Field.boolOfText s with
    | .accepted onlyActive => list onlyActive
    | .refused issues =>
      refuse (issues.map fun i => .about "query" (.text s) (i.under (.key "only_active")))
where
  list (onlyActive : Bool) : Service Reply :=
    return .ok (.array ((← Service.productsByName onlyActive).map productJson))

def perform (s : Settings) (a : Address) (r : Request) : Action → Service Reply
  | .listProducts => listProducts a
  | .createProduct => withBody r NewProduct.read fun p =>
    return .created (productJson (← Service.createProduct p.code p.name p.stock p.price))
  | .lookUpProduct code => return .ok (productJson (← Service.lookUpProduct code))
  | .updateProduct code => withBody r ProductChange.read fun p =>
    return .ok (productJson
      (← Service.updateProduct s.attempts code p.name p.price (p.stock.map Int.ofNat)))
  | .deleteProduct code => do
    let _ ← Service.deleteProduct code
    return .done
  | .hasActiveOrders code => return .ok (.bool (← Service.hasActiveOrders code))
  | .hasFinishedOrders code => return .ok (.bool (← Service.hasFinishedOrders code))
  | .createOrder => withBody r wantedProducts fun wanted =>
    return .created (orderJson
      (← Service.createOrder s (wanted.map fun w => (w.code, (w.quantity : Int)))))
  | .lookUpOrder code => return .ok (orderJson (← Service.orderOf code))
  | .payOrder code => return .ok (orderJson (← Service.payOrder s.attempts code))
  | .cancelOrder code => return .ok (orderJson (← Service.cancelOrder s.attempts code))
  | .reportHealth => return .ok healthJson

/- Replies -/

def noteContention (f : Fault) : Service Unit :=
  if f.kind = .concurrencyConflict then
    Service.note .desk .error ("Concurrency failure: " ++ f.message)
  else return

def replyOf (x : Service Reply) : Service Reply := do
  match ← Service.outcome x with
  | .ok reply => return reply
  | .error f =>
    noteContention f
    return .ofFault (← Service.now) f

def wrongMethod (p : Page) : Reply :=
  { Reply.remark 405 "Method Not Allowed" with allow := p.actions.head?.map (·.1) }

def replyTo (s : Settings) (r : Request) : Service Reply :=
  let address := Address.ofTarget r.target
  match address.route with
  | .page p =>
    match p.actions.lookup r.method.toUpper with
    | some action => replyOf (perform s address r action)
    | none => return wrongMethod p
  | .elsewhere location => return { status := 307, location := some location }
  | .nowhere => return .remark 404 "Not Found"

def answer (s : Settings) (r : Request) : Service Reply := do
  let reply ← replyTo s r
  return if r.method.toUpper = "HEAD" then { reply with content := .empty } else reply

end Desk
end Stockroom
