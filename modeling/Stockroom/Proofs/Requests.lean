import Stockroom.Desk.Answer
import Stockroom.Proofs.Money
import Stockroom.Proofs.Numerals

/-! What requests ask for.
A request asks for one command or for none, and it is answered in any case: with the result of
its command, with the fault the command ended in, or with a word on what is wrong with the
request itself. So the tables that requests lead to are in the same order as those that
commands lead to, with prices that passed the bounds on a request. -/
namespace Stockroom

/-- A command that a caller can ask for; orders expire without being asked. -/
def Command.AtDesk : Command → Prop
  | .expireOrder _ => False
  | .sweep => False
  | _ => True

namespace Desk

open Stockroom.Field (required)

/- Bodies that are accepted -/

section

variable {α β : Type}

theorem apply_accepted {f : Checked (α → β)} {x : Checked α} {b : β} :
    f.apply x = .accepted b ↔ ∃ g a, f = .accepted g ∧ x = .accepted a ∧ g a = b := by
  cases f <;> cases x <;> simp [Checked.apply]

theorem map_accepted {g : α → β} {x : Checked α} {b : β} :
    x.map g = .accepted b ↔ ∃ a, x = .accepted a ∧ g a = b := by
  cases x <;> simp [Checked.map]

theorem required_accepted {members : List (String × Json)} {name : String} {read : Field.Reader α}
    {a : α} (accepted : required members name read = .accepted a) :
    ∃ x, read x = .accepted a := by
  unfold required at accepted
  cases given : Json.lookup name members with
  | none =>
    rw [given] at accepted
    cases accepted
  | some x =>
    rw [given] at accepted
    cases taken : read x with
    | refused issues => simp [taken, Checked.under] at accepted
    | accepted b => exact ⟨x, by simpa [taken, Checked.under] using accepted⟩

theorem objectOf_accepted {read : List (String × Json) → Checked α} {x : Json} {a : α}
    (accepted : objectOf read x = .accepted a) : ∃ members, read members = .accepted a := by
  cases x with
  | object members => exact ⟨members, accepted⟩
  | _ => cases accepted

end

theorem readPrice_accepted {x : Json} {d : Decimal} (accepted : readPrice x = .accepted d) :
    checkPrice d = .accepted d := by
  unfold readPrice at accepted
  cases given : Field.decimal .usual x with
  | refused issues =>
    rw [given] at accepted
    cases accepted
  | accepted e =>
    rw [given] at accepted
    have checked : checkPrice e = .accepted d := accepted
    have same : e = d := by
      unfold checkPrice at checked
      repeat' split at checked
      all_goals cases checked
      rfl
    exact same ▸ checked

theorem sizedText_accepted {least : Nat} {most : Option Nat} {x : Json} {s : String}
    (accepted : sizedText least most x = .accepted s) : least ≤ s.length := by
  unfold sizedText at accepted
  cases given : Field.text x with
  | refused issues =>
    rw [given] at accepted
    cases accepted
  | accepted t =>
    rw [given, Checked.andThen] at accepted
    repeat' split at accepted
    all_goals cases accepted
    all_goals omega

theorem NewProduct.read_accepted {x : Json} {p : NewProduct} (accepted : read x = .accepted p) :
    1 ≤ p.code.length ∧ checkPrice p.price = .accepted p.price := by
  obtain ⟨members, whole⟩ := objectOf_accepted accepted
  obtain ⟨_, price, three, last, rfl⟩ := apply_accepted.mp whole
  obtain ⟨_, stock, two, _, rfl⟩ := apply_accepted.mp three
  obtain ⟨_, name, one, _, rfl⟩ := apply_accepted.mp two
  obtain ⟨code, first, rfl⟩ := map_accepted.mp one
  obtain ⟨_, named⟩ := required_accepted first
  obtain ⟨_, priced⟩ := required_accepted last
  exact ⟨sizedText_accepted named, readPrice_accepted priced⟩

theorem ProductChange.read_accepted {x : Json} {p : ProductChange}
    (accepted : read x = .accepted p) : checkPrice p.price = .accepted p.price := by
  obtain ⟨members, whole⟩ := objectOf_accepted accepted
  obtain ⟨_, price, two, last, rfl⟩ := apply_accepted.mp whole
  obtain ⟨_, stock, one, _, rfl⟩ := apply_accepted.mp two
  obtain ⟨name, _, rfl⟩ := map_accepted.mp one
  obtain ⟨_, priced⟩ := required_accepted last
  exact readPrice_accepted priced

/- The command of a request -/

namespace Request

def read? {α : Type} (r : Request) (read : Field.Reader α) : Option α :=
  match r.content with
  | .data x =>
    match read x with
    | .accepted a => some a
    | .refused _ => none
  | _ => none

def action? (r : Request) : Option Action :=
  match (Address.ofTarget r.target).route with
  | .page p => p.actions.lookup r.method.toUpper
  | _ => none

theorem read_accepted {α : Type} {r : Request} {read : Field.Reader α} {a : α}
    (given : r.read? read = some a) : ∃ x, read x = .accepted a := by
  unfold read? at given
  split at given
  · rename_i x _
    cases taken : read x with
    | refused issues => simp [taken] at given
    | accepted b => exact ⟨x, by simpa [taken] using given⟩
  · cases given

end Request

def onlyActive? (a : Address) : Option Bool :=
  match a.parameter? "only_active" with
  | none => some true
  | some s =>
    match Field.boolOfText s with
    | .accepted onlyActive => some onlyActive
    | .refused _ => none

/-- What an action asks of the service; nothing if the request is refused before. -/
def Action.command? (a : Address) (r : Request) : Action → Option Command
  | .listProducts => (onlyActive? a).map .listProducts
  | .createProduct => (r.read? NewProduct.read).map fun p =>
    .createProduct p.code p.name p.stock p.price
  | .lookUpProduct code => some (.lookUpProduct code)
  | .updateProduct code => (r.read? ProductChange.read).map fun p =>
    .updateProduct code p.name p.price (p.stock.map Int.ofNat)
  | .deleteProduct code => some (.deleteProduct code)
  | .hasActiveOrders code => some (.hasActiveOrders code)
  | .hasFinishedOrders code => some (.hasFinishedOrders code)
  | .createOrder => (r.read? wantedProducts).map fun wanted =>
    .createOrder (wanted.map fun w => (w.code, (w.quantity : Int)))
  | .lookUpOrder code => some (.lookUpOrder code)
  | .payOrder code => some (.payOrder code)
  | .cancelOrder code => some (.cancelOrder code)
  | .reportHealth => none

def Request.command? (r : Request) : Option Command :=
  r.action?.bind (Action.command? (Address.ofTarget r.target) r)

def Action.present : Action → Answer → Reply
  | .createProduct, .product p => .created (productJson p)
  | .createOrder, .order order => .created (orderJson order)
  | _, .product p => .ok (productJson p)
  | _, .products ps => .ok (.array (ps.map productJson))
  | _, .order order => .ok (orderJson order)
  | _, .found b => .ok (.bool b)
  | _, _ => .done

theorem present_status (action : Action) (a : Answer) :
    (action.present a).status ∈ [200, 201, 204] := by
  cases action <;> cases a <;> simp [Action.present, Reply.ok, Reply.created, Reply.done]

/-- A reply that takes no command. -/
inductive Idles (r : Request) : Service Reply → Prop where
  | refused (complaints : List Complaint) : Idles r (refuse complaints)
  | unread : r.content = .unreadable →
      Idles r (pure (.remark 400 "There was an error parsing the body"))
  | healthy : Idles r (pure (.ok healthJson))

section

variable {α : Type} {r : Request} {read : Field.Reader α} {act : α → Service Reply}

theorem withBody_some {x : α} (given : r.read? read = some x) : withBody r read act = act x := by
  unfold Request.read? at given
  unfold withBody
  cases content : r.content with
  | data y =>
    simp only [content] at given ⊢
    cases taken : read y with
    | accepted a =>
      simp only [taken, Option.some.injEq] at given
      rw [given]
    | refused issues => simp [taken] at given
  | _ => simp [content] at given

theorem withBody_none (missing : r.read? read = none) : Idles r (withBody r read act) := by
  unfold Request.read? at missing
  unfold withBody
  cases content : r.content with
  | data x =>
    simp only [content] at missing ⊢
    cases taken : read x with
    | accepted a => simp [taken] at missing
    | refused issues => exact .refused _
  | unreadable => exact .unread content
  | _ => exact .refused _

end

theorem listProducts_some {a : Address} {onlyActive : Bool}
    (given : onlyActive? a = some onlyActive) :
    listProducts a = listProducts.list onlyActive := by
  unfold onlyActive? at given
  unfold listProducts
  cases named : a.parameter? "only_active" with
  | none =>
    rw [named] at given
    cases given
    rfl
  | some s =>
    simp only [named] at given ⊢
    cases taken : Field.boolOfText s with
    | refused issues => simp [taken] at given
    | accepted b =>
      rw [taken] at given
      cases given
      rfl

theorem listProducts_none {a : Address} (r : Request) (missing : onlyActive? a = none) :
    Idles r (listProducts a) := by
  unfold onlyActive? at missing
  unfold listProducts
  cases named : a.parameter? "only_active" with
  | none =>
    rw [named] at missing
    cases missing
  | some s =>
    simp only [named] at missing ⊢
    cases taken : Field.boolOfText s with
    | accepted b => simp [taken] at missing
    | refused issues => exact .refused _

theorem presents {α : Type} {x : Service α} (f : α → Answer) (shown : Answer → Reply) :
    (do return shown (f (← x))) = shown <$> f <$> x := by
  rw [Functor.map_map]
  exact bind_pure_comp _ _

section

variable {s : Settings} {a : Address} {r : Request} {action : Action}

theorem perform_some {c : Command} (asked : action.command? a r = some c) :
    perform s a r action = action.present <$> c.perform s := by
  cases action with
  | listProducts =>
    obtain ⟨onlyActive, given, rfl⟩ := Option.map_eq_some_iff.mp asked
    rw [perform, listProducts_some given]
    exact presents .products (Action.present .listProducts)
  | createProduct =>
    obtain ⟨p, given, rfl⟩ := Option.map_eq_some_iff.mp asked
    rw [perform, withBody_some given]
    exact presents .product (Action.present .createProduct)
  | updateProduct code =>
    obtain ⟨p, given, rfl⟩ := Option.map_eq_some_iff.mp asked
    rw [perform, withBody_some given]
    exact presents .product (Action.present (.updateProduct code))
  | createOrder =>
    obtain ⟨wanted, given, rfl⟩ := Option.map_eq_some_iff.mp asked
    rw [perform, withBody_some given]
    exact presents .order (Action.present .createOrder)
  | reportHealth => cases asked
  | lookUpProduct code =>
    cases asked
    exact presents .product (Action.present (.lookUpProduct code))
  | deleteProduct code =>
    cases asked
    exact presents .deletion (Action.present (.deleteProduct code))
  | hasActiveOrders code =>
    cases asked
    exact presents .found (Action.present (.hasActiveOrders code))
  | hasFinishedOrders code =>
    cases asked
    exact presents .found (Action.present (.hasFinishedOrders code))
  | lookUpOrder code =>
    cases asked
    exact presents .order (Action.present (.lookUpOrder code))
  | payOrder code =>
    cases asked
    exact presents .order (Action.present (.payOrder code))
  | cancelOrder code =>
    cases asked
    exact presents .order (Action.present (.cancelOrder code))

theorem perform_none (unasked : action.command? a r = none) : Idles r (perform s a r action) := by
  cases action with
  | listProducts => exact listProducts_none r (Option.map_eq_none_iff.mp unasked)
  | createProduct => exact withBody_none (Option.map_eq_none_iff.mp unasked)
  | updateProduct code => exact withBody_none (Option.map_eq_none_iff.mp unasked)
  | createOrder => exact withBody_none (Option.map_eq_none_iff.mp unasked)
  | reportHealth => exact .healthy
  | _ => cases unasked

end

/- Replies -/

/-- A reply as the service describes its replies: a success, a refusal of what the body says, a
fault that is told, or a word on a body or an address that leads nowhere. -/
inductive Told (r : Request) : Reply → Prop where
  | done {reply : Reply} : reply.status ∈ [200, 201, 204] → Told r reply
  | refused {reply : Reply} : r.command? = none → reply.status = 422 → Told r reply
  | failed {now : Moment} {status : Nat} {heading message : String} :
      status ∈ [400, 404, 409] → Told r (.failed now status heading message)
  | unread : r.content = .unreadable →
      Told r (.remark 400 "There was an error parsing the body")
  | unserved {reply : Reply} : r.action? = none → reply.status ∈ [307, 404, 405] → Told r reply

/-- A request is answered with what its command did, or takes no command. -/
inductive Replied (s : Settings) (r : Request) (w : World) : Reply → World → Prop where
  | done {action : Action} {c : Command} {a : Answer} {v : World} : r.command? = some c →
      c.perform s w = .ok a v → Replied s r w (action.present a) v
  | failed {c : Command} {f : Fault} {u v : World} {m : Moment} : r.command? = some c →
      c.perform s w = .error f u → v.tables = u.tables → u.codesGiven ≤ v.codesGiven →
      Replied s r w (.ofFault m f) v
  | idle {reply : Reply} {v : World} : r.command? = none → v.tables = w.tables →
      w.codesGiven ≤ v.codesGiven → Told r reply → Replied s r w reply v

theorem refused_told {r : Request} (unasked : r.command? = none) (now : Moment)
    (complaints : List Complaint) : Told r (.refused now complaints) := by
  unfold Reply.refused
  dsimp only
  split
  · exact .refused unasked rfl
  · exact .failed (by decide)

theorem Idles.run {r : Request} {x : Service Reply} (idles : Idles r x)
    (unasked : r.command? = none) (w : World) :
    ∃ reply v, x w = .ok reply v ∧ v.tables = w.tables ∧ w.codesGiven ≤ v.codesGiven ∧
      Told r reply := by
  cases idles with
  | refused complaints =>
    obtain ⟨v, shown, same, _, lead⟩ := Service.now_run w
    exact ⟨_, v, Service.bind_ok.mpr ⟨w.clock, v, shown, rfl⟩, same, lead.codes,
      refused_told unasked w.clock complaints⟩
  | unread content => exact ⟨_, w, rfl, rfl, Nat.le_refl _, .unread content⟩
  | healthy => exact ⟨_, w, rfl, rfl, Nat.le_refl _, .done (by decide)⟩

theorem noteContention_passes (f : Fault) : (noteContention f).Passes () := by
  unfold noteContention
  split
  · exact Service.note_passes _ _ _
  · exact Service.passes_pure ()

section

variable {x : Service Reply} {w v : World}

theorem replyOf_ok {reply : Reply} (run : x w = .ok reply v) : replyOf x w = .ok reply v := by
  refine Service.bind_ok.mpr ⟨.ok reply, v, ?_, rfl⟩
  rw [Service.outcome, run]

theorem replyOf_error {f : Fault} (run : x w = .error f v) :
    ∃ m u, replyOf x w = .ok (.ofFault m f) u ∧ u.tables = v.tables ∧
      v.codesGiven ≤ u.codesGiven := by
  obtain ⟨v', noted, same, lead⟩ := noteContention_passes f v
  obtain ⟨u, shown, same', _, lead'⟩ := Service.now_run v'
  refine ⟨v'.clock, u, Service.bind_ok.mpr ⟨.error f, v, ?_, ?_⟩, same'.trans same,
    (lead.trans lead').codes⟩
  · rw [Service.outcome, run]
  · exact Service.bind_ok.mpr ⟨(), v', noted, Service.bind_ok.mpr ⟨v'.clock, u, shown, rfl⟩⟩

end

section

variable {s : Settings} {r : Request}

theorem answer_action {action : Action} (asked : r.action? = some action) :
    answer s r = replyOf (perform s (.ofTarget r.target) r action) := by
  unfold Request.action? at asked
  split at asked
  · rename_i p led
    have plain : r.method.toUpper ≠ "HEAD" := by
      intro head
      rw [head] at asked
      cases p <;> cases asked
    simp [answer, replyTo, led, asked, plain]
  · cases asked

theorem answer_unserved (unserved : r.action? = none) (w : World) :
    ∃ reply, answer s r w = .ok reply w ∧ reply.status ∈ [307, 404, 405] := by
  have replies : ∃ reply, replyTo s r w = .ok reply w ∧ reply.status ∈ [307, 404, 405] := by
    unfold Request.action? at unserved
    unfold replyTo
    cases led : (Address.ofTarget r.target).route with
    | page p =>
      simp only [led] at unserved
      simp only [unserved]
      exact ⟨_, rfl, by simp [wrongMethod, Reply.remark]⟩
    | elsewhere location => exact ⟨_, rfl, by simp⟩
    | nowhere => exact ⟨_, rfl, by simp [Reply.remark]⟩
  obtain ⟨reply, run, status⟩ := replies
  refine ⟨_, Service.bind_ok.mpr ⟨reply, w, run, rfl⟩, ?_⟩
  split <;> exact status

/-- Every request has a reply, whatever becomes of its command. -/
theorem answer_replied (s : Settings) (r : Request) (w : World) :
    ∃ reply v, answer s r w = .ok reply v ∧ Replied s r w reply v := by
  cases asked : r.action? with
  | none =>
    obtain ⟨reply, run, status⟩ := answer_unserved (s := s) asked w
    have unasked : r.command? = none := by rw [Request.command?, asked, Option.bind_none]
    exact ⟨reply, w, run, .idle unasked rfl (Nat.le_refl _) (.unserved asked status)⟩
  | some action =>
    rw [answer_action asked]
    cases given : r.command? with
    | none =>
      have unasked := given
      rw [Request.command?, asked, Option.bind_some] at given
      obtain ⟨reply, v, run, same, codes, told⟩ := (perform_none (s := s) given).run unasked w
      exact ⟨reply, v, replyOf_ok run, .idle unasked same codes told⟩
    | some c =>
      have named := given
      rw [Request.command?, asked, Option.bind_some] at given
      rw [perform_some given]
      cases run : c.perform s w with
      | ok a v => exact ⟨_, v, replyOf_ok (Service.map_ok run), .done named run⟩
      | error f u =>
        obtain ⟨m, v, replied, same, codes⟩ := replyOf_error
          (Service.map_error (g := action.present).mpr run)
        exact ⟨_, v, replied, .failed named run same codes⟩

end

/-- The commands that requests ask for: prices are within their bounds, and no request asks for
the expiry of orders. -/
theorem command_priced {r : Request} {c : Command} (asked : r.command? = some c) :
    c.Priced ∧ c.AtDesk := by
  obtain ⟨action, _, given⟩ := Option.bind_eq_some_iff.mp asked
  cases action with
  | listProducts =>
    obtain ⟨_, _, rfl⟩ := Option.map_eq_some_iff.mp given
    exact ⟨trivial, trivial⟩
  | createProduct =>
    obtain ⟨p, read, rfl⟩ := Option.map_eq_some_iff.mp given
    obtain ⟨x, accepted⟩ := Request.read_accepted read
    exact ⟨(NewProduct.read_accepted accepted).2, trivial⟩
  | updateProduct code =>
    obtain ⟨p, read, rfl⟩ := Option.map_eq_some_iff.mp given
    obtain ⟨x, accepted⟩ := Request.read_accepted read
    exact ⟨ProductChange.read_accepted accepted, trivial⟩
  | createOrder =>
    obtain ⟨_, _, rfl⟩ := Option.map_eq_some_iff.mp given
    exact ⟨trivial, trivial⟩
  | reportHealth => cases given
  | _ =>
    cases given
    exact ⟨trivial, trivial⟩

end Desk

/- Numbered orders -/

theorem orderCode_injective {n m : Nat} (same : orderCode n = orderCode m) : n = m := by
  have digits : Nat.toDigits 10 n = Nat.toDigits 10 m := by
    simpa [orderCode] using congrArg String.toList same
  rw [← toDigits_value n, digits, toDigits_value]

namespace World

def Numbered (w : World) : Prop := ∀ r ∈ w.tables.orders, ∃ n ≤ w.codesGiven, r.code = orderCode n

theorem Numbered.fresh {w : World} (numbered : w.Numbered) {n : Nat} (next : w.codesGiven < n) :
    w.tables.orderWithCode? (orderCode n) = none := by
  refine List.find?_eq_none.mpr fun r member => ?_
  obtain ⟨k, given, code⟩ := numbered r member
  rw [code, decide_eq_true_eq]
  intro same
  have := orderCode_injective same
  omega

end World

namespace Service

variable {w : World}

theorem placeOrder_code {s : Settings} {wanted : List (String × Int)} {order : Order} {v : World}
    (alone : w.Alone) (run : placeOrder s wanted w = .ok order v) :
    ∃ n ≤ v.codesGiven, order.code = orderCode n := by
  obtain ⟨lines, v₁, reserved, run₁⟩ := bind_ok.mp run
  obtain ⟨m, v₂, shown, run₂⟩ := bind_ok.mp run₁
  obtain ⟨code, v₃, given, run₃⟩ := bind_ok.mp run₂
  obtain ⟨total, v₄, summed, run₄⟩ := bind_ok.mp run₃
  obtain ⟨expires, v₅, shifted, run₅⟩ := bind_ok.mp run₄
  obtain ⟨_, rfl⟩ := ofExcept_ok.mp summed
  have lead₁ := ((reserveLines_meets wanted alone).of_ok reserved).2
  obtain ⟨_, shown', _, _, lead₂⟩ := now_run v₁
  cases shown.symm.trans shown'
  have lead₃ : v₂.Leads v₄ := by
    cases given
    exact .of_eq rfl rfl (Nat.le_succ _)
  have start := lead₁.trans (lead₂.trans lead₃)
  have lead₄ := ((later_meets _ _ (start.alone alone)).of_ok shifted).2
  obtain ⟨⟨id, u, _, _, _, _, _, rfl⟩, lead₅⟩ :=
    (insertOrder_meets code total expires lines _ ((start.trans lead₄).alone alone)).of_ok run₅
  cases given
  exact ⟨v₂.codesGiven + 1, (lead₄.trans lead₅).codes, rfl⟩

theorem createOrder_code {s : Settings} {wanted : List (String × Int)} {order : Order} {v : World}
    (alone : w.Alone) (run : createOrder s wanted w = .ok order v) :
    ∃ n ≤ v.codesGiven, order.code = orderCode n := by
  unfold createOrder at run
  split at run
  · cases run
  obtain ⟨order', v₁, stored, run₁⟩ := bind_ok.mp run
  obtain ⟨_, v₂, dropped, run₂⟩ := bind_ok.mp run₁
  obtain ⟨v₀, placed, closed⟩ := atomically_ok.mp stored
  obtain ⟨n, given, code⟩ := placeOrder_code alone placed
  cases turn_ok closed
  obtain ⟨_, dropped', _, onward⟩ := dropSnapshots_passes _ v₀.turned
  cases dropped.symm.trans dropped'
  cases run₂
  exact ⟨n, Nat.le_trans given onward.codes, code⟩

end Service

theorem Placed.orders {ttl : Span} {times : List Moment} {t t' : Tables}
    {wanted : List (String × Int)} {order : Order} (placed : Placed ttl times t wanted order t') :
    ∀ r ∈ t'.orders, r ∈ t.orders ∨ r.code = order.code := by
  obtain ⟨reserved, _, _, _, _, inserted, _, lined, _⟩ := placed
  obtain ⟨_, _, _, _, rfl⟩ := insertOrder_ok inserted
  obtain ⟨_, _, _, rfl⟩ := insertLines_ok lined
  rw [reserved.moved.faces.orders]
  intro r member
  rcases List.mem_append.mp member with known | new
  · exact .inl known
  · rw [List.mem_singleton.mp new]
    exact .inr rfl

theorem Command.Makes.ordered {c : Command} {done : Bool} {id : Int}
    (makes : c.Makes done [.place id]) : ∃ wanted, c = .createOrder wanted := by
  cases c with
  | createOrder wanted => exact ⟨wanted, rfl⟩
  | updateProduct _ _ _ stock => cases stock <;> cases done <;> simp [Command.Makes] at makes
  | sweep =>
    obtain ⟨ids, same⟩ : ∃ ids : List Int, [Change.place id] = ids.map (.leave · .expired) := by
      cases done <;> exact makes
    cases ids <;> simp at same
  | _ => cases done <;> simp [Command.Makes] at makes

/- Tables in order -/

/-- What the tables are like between requests. -/
structure World.InOrder (w : World) : Prop where
  sound : Sound w.tables
  readable : Readable w.tables
  priced : w.tables.Priced
  numbered : w.Numbered

namespace World.InOrder

theorem start {w : World} (empty : w.tables = {}) : w.InOrder := by
  have priced : Tables.Priced {} := by simp [Tables.Priced]
  refine ⟨empty ▸ sound_empty, empty ▸ readable_empty, empty ▸ priced, ?_⟩
  simp [Numbered, empty]

theorem of_eq {v w : World} (h : v.InOrder) (same : w.tables = v.tables)
    (codes : v.codesGiven ≤ w.codesGiven) : w.InOrder where
  sound := same ▸ h.sound
  readable := same ▸ h.readable
  priced := same ▸ h.priced
  numbered := by
    rw [Numbered, same]
    intro r member
    obtain ⟨n, given, code⟩ := h.numbered r member
    exact ⟨n, Nat.le_trans given codes, code⟩

end World.InOrder

section

variable {s : Settings} {c : Command} {w v : World}

theorem World.Numbered.follows {times : List Moment} (numbered : w.Numbered)
    (followed : List.Forall₂ (OrderRow.Follows times) w.tables.orders v.tables.orders)
    (codes : w.codesGiven ≤ v.codesGiven) : v.Numbered := by
  intro r member
  obtain ⟨before, known, follows⟩ := forall₂_mem followed r member
  obtain ⟨n, given, code⟩ := numbered before known
  have same : r.code = before.code := by cases follows <;> rfl
  exact ⟨n, Nat.le_trans given codes, same.trans code⟩

theorem World.Numbered.place {wanted : List (String × Int)} (alone : w.Alone)
    (numbered : w.Numbered) :
    ((Command.createOrder wanted).perform s).Ends w (fun _ v => v.Numbered) fun _ _ => True := by
  refine Service.ends_map.mpr ?_
  have met := Service.createOrder_meets (s := s) wanted alone
  unfold Service.Ends at met ⊢
  cases run : Service.createOrder s wanted w with
  | error f v => exact trivial
  | ok order v =>
    rw [run] at met
    obtain ⟨⟨_, placed⟩, lead⟩ := met
    obtain ⟨n, given, code⟩ := Service.createOrder_code alone run
    intro r member
    rcases placed.orders r member with known | new
    · obtain ⟨k, given', code'⟩ := numbered r known
      exact ⟨k, Nat.le_trans given' lead.codes, code'⟩
    · exact ⟨n, given, new.trans code⟩

theorem Command.perform_numbered (alone : w.Alone) (numbered : w.Numbered) :
    (c.perform s).Ends w (fun _ v => v.Numbered) (fun _ v => v.Numbered) := by
  have made := c.perform_makes s alone
  unfold Service.MakesOf Service.Ends at made
  unfold Service.Ends
  cases run : c.perform s w with
  | ok a v =>
    rw [run] at made
    obtain ⟨lead, cs, makes, commits⟩ := made
    rcases makes.places with others | ⟨id, rfl⟩
    · exact numbered.follows (commits.follows others).1 lead.codes
    · obtain ⟨wanted, rfl⟩ := makes.ordered
      exact (numbered.place alone).of_ok run
  | error f v =>
    rw [run] at made
    obtain ⟨lead, cs, makes, commits⟩ := made
    rcases makes.places with others | ⟨id, rfl⟩
    · exact numbered.follows (commits.follows others).1 lead.codes
    · obtain ⟨wanted, rfl⟩ := makes.ordered
      cases makes

theorem Reachable.numbered {admits : Command → Prop} {w : World} (reached : Reachable admits w) :
    w.Numbered := by
  induction reached with
  | start empty => simp [World.Numbered, empty]
  | @next w e _ alone _ ih =>
    have ends := e.command.perform_numbered (s := e.settings) (w := w.facing e) alone ih
    rcases event_ends ends with ⟨_, _, numbered⟩ | ⟨_, _, numbered⟩
    · exact numbered
    · exact numbered

theorem Command.perform_inOrder (alone : w.Alone) (priced : c.Priced) (h : w.InOrder) :
    (c.perform s).Ends w (fun _ v => v.InOrder) (fun _ v => v.InOrder) := by
  have kept {done : Bool} {v : World} {cs : List Change} (makes : c.Makes done cs)
      (commits : Commits s.expiry.orderTtl w.times cs w.tables v.tables)
      (numbered : v.Numbered) : v.InOrder :=
    ⟨h.sound.commits commits, priced.readable makes commits h.readable,
      priced.atLeastCent makes commits h.priced, numbered⟩
  refine ((c.perform_makes s alone).and (c.perform_numbered alone h.numbered)).mono ?_ ?_
  · rintro a v ⟨⟨_, cs, makes, commits⟩, numbered⟩
    exact kept makes commits numbered
  · rintro f v ⟨⟨_, cs, makes, commits⟩, numbered⟩
    exact kept makes commits numbered

end

/- States that requests lead to -/

/-- A request, and the circumstances in which it comes. -/
structure Visit where
  settings : Settings
  now : Moment
  disruptions : Disruptions := {}
  request : Desk.Request

def World.visited (w : World) (visit : Visit) : World :=
  { w with now := visit.now, disruptions := visit.disruptions }

def World.statusTold (w : World) (visit : Visit) : Nat :=
  match Desk.answer visit.settings visit.request (w.visited visit) with
  | .ok reply _ => reply.status
  | .error _ _ => 0

/-- The states that requests lead to, from empty tables. Others may refuse statements, hold
locks and be faster. -/
inductive Served : World → Prop where
  | start {w : World} : w.tables = {} → Served w
  | next {w v : World} {visit : Visit} {reply : Desk.Reply} : Served w →
      visit.disruptions.Alone →
      Desk.answer visit.settings visit.request (w.visited visit) = .ok reply v → Served v

theorem Served.inOrder {w : World} (served : Served w) : w.InOrder := by
  induction served with
  | start empty => exact .start empty
  | @next w v visit reply _ alone run ih =>
    have before : (w.visited visit).InOrder := ih.of_eq rfl (Nat.le_refl _)
    obtain ⟨reply', v', run', replied⟩ :=
      Desk.answer_replied visit.settings visit.request (w.visited visit)
    cases run.symm.trans run'
    cases replied with
    | done asked done =>
      have ends := Command.perform_inOrder (s := visit.settings) (w := w.visited visit) alone
        (Desk.command_priced asked).1 before
      exact ends.of_ok done
    | failed asked failed same codes =>
      have ends := Command.perform_inOrder (s := visit.settings) (w := w.visited visit) alone
        (Desk.command_priced asked).1 before
      exact (ends.of_error failed).of_eq same codes
    | idle _ same codes _ => exact before.of_eq same codes

end Stockroom
