import Stockroom.Proofs.Runs

/-! Stock is neither made nor lost.
What a product has in stock and what orders hold of it add up to the same number before and
after every command, unless the command itself sets the stock. An order's creation moves units
from the stock to the order, its end moves them back or leaves them where they are. -/
namespace Stockroom

open Service (fits64)

/- Sums over lines -/

theorem sum_filter {α : Type} (p : α → Bool) (f : α → Int) (xs : List α) :
    ((xs.filter p).map f).sum = (xs.map fun x => if p x then f x else 0).sum := by
  induction xs with
  | nil => rfl
  | cons x xs ih =>
    cases hit : p x with
    | true => simp [hit, ih]
    | false => simp [hit, ih]

theorem held_congr {t t' : Tables} (orders : t'.orders = t.orders) (lines : t'.lines = t.lines)
    (code : String) : t'.held code = t.held code := by
  unfold Tables.held Tables.isActive
  rw [orders, lines]

theorem held_insert {u t' : Tables} {order : Order} (sound : Sound u) (h : Inserted u order t')
    (code : String) : t'.held code = u.held code + units code order.lines := by
  obtain ⟨rows, holds, lines⟩ := h.lines
  have old : u.lines.filter (fun l => l.productCode = code && t'.isActive l.orderId) =
      u.lines.filter fun l => l.productCode = code && u.isActive l.orderId := by
    refine List.filter_congr fun l here => ?_
    rw [h.isActive]
    simp [sound.orderId_ne here]
  have new : rows.filter (fun l => l.productCode = code && t'.isActive l.orderId) =
      rows.filter fun l => l.productCode = code := by
    refine List.filter_congr fun l here => ?_
    obtain ⟨line, _, held⟩ := forall₂_mem holds l here
    rw [h.isActive]
    simp [held.order]
  unfold Tables.held
  rw [lines, List.filter_append, List.map_append, List.sum_append, old, new,
    ← units_holds holds]

/-- An order that leaves the pending state gives up what it held, unless it is paid. -/
theorem held_move {t : Tables} (sound : Sound t) {r : OrderRow} (member : r ∈ t.orders)
    (pending : r.status = .pending) (target : OrderStatus) (m : Moment) (code : String) :
    ({ t with orders := t.orders.map (·.movedTo r.id target m) } : Tables).held code +
        (if OrderStatus.active.contains target then 0 else t.ordered r.id code) =
      t.held code := by
  have inForce : t.isActive r.id = true :=
    isActive_iff.mpr ⟨r, member, rfl, by simp [pending, OrderStatus.active]⟩
  unfold Tables.held Tables.ordered Tables.linesOf
  simp only [isActive_moved sound.ids member pending]
  rw [List.filter_filter, sum_filter, sum_filter, sum_filter]
  cases stays : OrderStatus.active.contains target with
  | true =>
    rw [if_pos rfl, Int.add_zero]
    congr 2
    funext l
    by_cases own : l.orderId = r.id
    · simp [own, inForce]
    · simp [own]
  | false =>
    rw [if_neg (by decide), ← List.sum_map_add]
    congr 2
    funext l
    by_cases own : l.orderId = r.id
    · simp [own, inForce]
    · simp [own]

/- Single changes -/

/-- A product's stock and what orders hold of it, if it has a row. -/
def Tables.balance? (t : Tables) (code : String) : Option Int :=
  (t.stock? code).map (· + t.held code)

theorem balance_congr {t t' : Tables} {code : String} (stock : t'.stock? code = t.stock? code)
    (orders : t'.orders = t.orders) (lines : t'.lines = t.lines) :
    t'.balance? code = t.balance? code := by
  unfold Tables.balance?
  rw [stock, held_congr orders lines]

theorem balance_moved {t t' : Tables} {d : String → Int}
    (moved : ∀ c, t'.stock? c = (t.stock? c).map (· + d c)) {code : String}
    (held : t'.held code + d code = t.held code) : t'.balance? code = t.balance? code := by
  unfold Tables.balance?
  rw [moved, map_add_add, ← held, Int.add_comm (d code)]

theorem balance_place {ttl : Span} {times : List Moment} {t t' : Tables}
    {wanted : List (String × Int)} {order : Order} (sound : Sound t)
    (h : Placed ttl times t wanted order t') (code : String) :
    t'.balance? code = t.balance? code := by
  obtain ⟨u, reserved, inserted⟩ := h.inserted
  have taken := reserved.moved
  refine balance_moved (d := fun c => -units c order.lines) ?_ ?_
  · intro c
    rw [← taken.stock sound.codes, Tables.stock?, Tables.stock?, Tables.product?, Tables.product?,
      inserted.products]
  · have before := held_congr taken.faces.orders taken.faces.lines code
    have after := held_insert (sound.reserve reserved) inserted code
    omega

theorem balance_leave {times : List Moment} {t t' : Tables} {r : OrderRow} {order : Order}
    {target : OrderStatus} (sound : Sound t) (member : r ∈ t.orders)
    (read : t.readOrder r = .ok order) (pending : order.status = .pending)
    (not_pending : target ≠ .pending) (left : Left times t order target t') (code : String) :
    t'.balance? code = t.balance? code := by
  have named := units_read read
  obtain ⟨ls, rfl⟩ := readOrder_values read
  obtain ⟨m, u, rfl, rest⟩ := left.moved
  have gave := held_move sound member pending target m code
  rcases rest with ⟨rfl, rfl⟩ | ⟨unpaid, released⟩
  · refine balance_moved (d := fun _ => 0) ?_ ?_
    · exact fun c => (map_add_zero _).symm
    · simpa [OrderStatus.active] using gave
  · have stays : OrderStatus.active.contains target = false := by
      cases target <;> simp_all [OrderStatus.active]
    have given := released.moved
    refine balance_moved (d := fun c => units c ls) ?_ ?_
    · exact fun c => given.stock sound.codes c
    · rw [held_congr given.faces.orders given.faces.lines code, named]
      rw [stays] at gave
      exact gave

theorem stock_update {t : Tables} {code c : String} {f : ProductRow → ProductRow}
    (codes : ∀ r, (f r).code = r.code) (stocks : ∀ r, (f r).stock = r.stock) :
    (t.updateProduct code f).stock? c = t.stock? c := by
  unfold Tables.stock?
  rw [product_update codes, Option.map_map]
  congr 1
  funext r
  rw [Function.comp_apply]
  split
  · exact stocks r
  · rfl

theorem held_describe {t t' : Tables} {code name : String} {price : Decimal} {m : Moment}
    {p : Product} (described : t.redescribe code name price m = .ok (p, t')) (c : String) :
    t'.held c = t.held c := by
  obtain ⟨_, _, _, _, _, _, swapped, _⟩ := Tables.redescribe_ok.mp described
  obtain ⟨amount, _, rfl⟩ := swapCatalog_ok swapped
  exact held_congr rfl rfl c

theorem balance_describe {t t' : Tables} {code name : String} {price : Decimal} {m : Moment}
    {p : Product} (described : t.redescribe code name price m = .ok (p, t')) (c : String) :
    t'.balance? c = t.balance? c := by
  obtain ⟨_, _, _, _, _, _, swapped, _⟩ := Tables.redescribe_ok.mp described
  obtain ⟨amount, _, rfl⟩ := swapCatalog_ok swapped
  refine balance_congr (stock_update ?_ ?_) rfl rfl
  · intro r
    split <;> rfl
  · intro r
    split <;> rfl

theorem balance_create {t t' : Tables} {code name : String} {stock : Int} {price : Decimal}
    (inserted : t.insertProduct code name stock price = .ok t') {c : String}
    (known : (t.stock? c).isSome) : t'.balance? c = t.balance? c := by
  obtain ⟨_, _, amount, _, rfl⟩ := insertProduct_ok inserted
  refine balance_congr ?_ rfl rfl
  unfold Tables.stock? at known ⊢
  obtain ⟨row, found⟩ := Option.isSome_iff_exists.mp ((Option.isSome_map ..).symm.trans known)
  unfold Tables.product? at found ⊢
  rw [List.find?_append, found]
  rfl

theorem balance_withdraw {t t' : Tables} {code : String} {deletion : Service.Deletion}
    (withdrawn : Withdrawn t code deletion t') {c : String} (known : (t'.stock? c).isSome) :
    t'.balance? c = t.balance? c := by
  cases withdrawn with
  | archived => exact balance_congr (stock_update (fun _ => rfl) fun _ => rfl) rfl rfl
  | removed _ _ _ removed =>
    obtain ⟨_, rfl⟩ := removeProduct_ok removed
    refine balance_congr ?_ rfl rfl
    have other : c ≠ code := by
      rintro rfl
      simp [Tables.stock?, Tables.product?] at known
    unfold Tables.stock? Tables.product?
    rw [List.find?_filter]
    congr 2
    funext r
    by_cases here : r.code = c
    · simp [here, other]
    · simp [here]

theorem stock_correct {t t' : Tables} {code : String} {quantity : Int} {m : Moment} {p : Product}
    (sound : Sound t) (corrected : t.restock code (fun _ => .ok quantity) m = .ok (p, t'))
    (c : String) :
    (if code = c then t'.stock? c = some quantity else t'.stock? c = t.stock? c) ∧
      ∀ c, t'.held c = t.held c := by
  obtain ⟨r, q, _, computed, stocked⟩ := restock_effect corrected
  obtain rfl : p.stock = quantity := (Except.ok.inj computed).symm
  refine ⟨?_, held_congr stocked.sameFaces.orders stocked.sameFaces.lines⟩
  rw [stocked.stock sound.codes]
  split
  · rename_i here
    have found : t.stock? c = some r.stock := by
      rw [Tables.stock?, ← here, ← stocked.named, product_of_mem sound.codes stocked.member]
      rfl
    rw [found, Option.map_some]
    congr 1
    omega
  · exact map_add_zero _

/- Commands -/

def Command.sets : Command → String → Option Int
  | .updateProduct code _ _ stock, c => if code = c then stock else none
  | _, _ => none

section

variable {ttl : Span} {times : List Moment} {t t' : Tables}

theorem balance_leaves {ids : List Int} {target : OrderStatus} (sound : Sound t)
    (h : Commits ttl times (ids.map (.leave · target)) t t') (code : String) :
    t'.balance? code = t.balance? code := by
  have both : Sound t' ∧ t'.balance? code = t.balance? code := by
    refine Commits.keep (P := fun u => Sound u ∧ u.balance? code = t.balance? code) h ?_ ⟨sound, rfl⟩
    rintro c member u u' one ⟨before, same⟩
    refine ⟨before.commit one, ?_⟩
    obtain ⟨id, _, rfl⟩ := List.mem_map.mp member
    cases one with
    | leave known read pending not_pending left =>
      exact (balance_leave before known read pending not_pending left code).trans same
  exact both.2

/-- The changes of a command that sets no stock of a product balance, for a product that has a
row before and after them. -/
theorem balance_makes {c : Command} {done : Bool} {cs : List Change}
    (makes : c.Makes done cs) (commits : Commits ttl times cs t t') (sound : Sound t) {code : String}
    (unset : done = false ∨ c.sets code = none) (before : (t.stock? code).isSome)
    (after : (t'.stock? code).isSome) : t'.balance? code = t.balance? code := by
  have nothing (h : Commits ttl times [] t t') : t'.balance? code = t.balance? code := by
    rw [h.none]
  have leave {id : Int} {target : OrderStatus}
      (h : Commits ttl times ([id].map (.leave · target)) t t') :
      t'.balance? code = t.balance? code :=
    balance_leaves sound h code
  revert makes
  fun_cases Command.Makes c done cs
  case case1 =>
    rintro rfl
    cases commits.one with
    | create inserted _ => exact balance_create inserted before
  case case2 =>
    rintro rfl
    cases commits.one with
    | describe described => exact balance_describe described code
  case case3 code' _ _ quantity =>
    rintro rfl
    have other : code' ≠ code := by simpa [Command.sets] using unset
    obtain ⟨u, first, second⟩ := commits.two
    cases first with
    | describe described =>
      cases second with
      | correct corrected =>
        obtain ⟨stock, held⟩ := stock_correct (sound.describe described) corrected code
        rw [if_neg other] at stock
        rw [← balance_describe described code]
        unfold Tables.balance?
        rw [stock, held]
  case case4 =>
    rintro ⟨deletion, rfl⟩
    cases commits.one with
    | withdraw withdrawn => exact balance_withdraw withdrawn after
  case case5 =>
    rintro ⟨id, rfl⟩
    cases commits.one with
    | place placed => exact balance_place sound placed code
  case case6 | case7 =>
    rintro ⟨id, rfl⟩
    exact leave commits
  case case8 | case9 =>
    rintro (rfl | ⟨id, rfl⟩)
    · exact nothing commits
    · exact leave commits
  case case10 =>
    rintro (rfl | rfl)
    · exact nothing commits
    · exact leave commits
  case case11 =>
    rintro ⟨ids, rfl⟩
    exact balance_leaves sound commits code
  case case12 =>
    rintro rfl
    exact nothing commits

theorem stock_makes {c : Command} {cs : List Change} (makes : c.Makes true cs)
    (commits : Commits ttl times cs t t') (sound : Sound t) {code : String} {quantity : Int}
    (set : c.sets code = some quantity) :
    t'.stock? code = some quantity ∧ t'.held code = t.held code := by
  cases c with
  | updateProduct code' name price stock =>
    simp only [Command.sets, Option.ite_none_right_eq_some] at set
    obtain ⟨rfl, rfl⟩ := set
    cases makes
    obtain ⟨u, first, second⟩ := commits.two
    cases first with
    | describe described =>
      cases second with
      | correct corrected =>
        obtain ⟨stock, held⟩ := stock_correct (sound.describe described) corrected code'
        rw [if_pos rfl] at stock
        exact ⟨stock, (held code').trans (held_describe described code')⟩
  | _ => cases set

end

/-- Conservation of stock. In every state that is reached, a stock and what orders hold of it have
the same sum before and after the next event, unless that event sets the stock; then what is held
stays. -/
theorem stock_plus_held_conserved {w : World} (reached : Reachable (fun _ => True) w) :
    (∀ r ∈ w.tables.products, 0 ≤ r.stock ∧ r.stock ≤ 2 ^ 63 - 1) ∧
    ∀ e : Event, e.disruptions.Alone → ∀ code before after,
      w.tables.stock? code = some before → (w.after e).tables.stock? code = some after →
      (∀ quantity, (w.answer e).toBool = true → e.command.sets code = some quantity →
        after = quantity ∧ (w.after e).tables.held code = w.tables.held code) ∧
      ((w.answer e).toBool = false ∨ e.command.sets code = none →
        after + (w.after e).tables.held code = before + w.tables.held code) := by
  have sound := reached.sound
  refine ⟨fun r member => ?_, ?_⟩
  · obtain ⟨least, most⟩ := sound.inStock r member
    exact ⟨least, by omega⟩
  intro e alone code before after had has
  obtain ⟨cs, makes, commits⟩ := event_makes w e alone
  refine ⟨fun quantity done set => ?_, fun unset => ?_⟩
  · rw [done] at makes
    obtain ⟨stock, held⟩ := stock_makes makes commits sound set
    rw [has] at stock
    exact ⟨Option.some.inj stock, held⟩
  · have balanced := balance_makes makes commits sound unset (by rw [had]; rfl) (by rw [has]; rfl)
    unfold Tables.balance? at balanced
    rw [had, has] at balanced
    exact Option.some.inj balanced

/-- Canceling the tea moves its two units from what is held to the stock. -/
theorem canceled_tea_balances :
    5 + (World.teaOrdered.after (.quiet 2 (.cancelOrder "order-1"))).tables.held "tea" =
      3 + World.teaOrdered.tables.held "tea" := by
  have conserved := stock_plus_held_conserved teaOrdered_reached
  refine (conserved.2 (.quiet 2 (.cancelOrder "order-1")) quiet_nothing.alone "tea" 3 5 ?_ ?_).2
    (.inr rfl)
  · decide +kernel
  · decide +kernel

end Stockroom
