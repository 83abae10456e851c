import Mathlib.Algebra.BigOperators.Ring.Finset
import Mathlib.Algebra.Order.BigOperators.Group.List
import Stockroom.Proofs.Exactness
import Stockroom.Proofs.Lifecycle
import Stockroom.Proofs.Nearest
import Stockroom.Proofs.Readable

namespace Stockroom

open OrderRow (Follows)

/- Prices -/

def Amount.AtLeastCent (a : Amount) : Prop := ∃ c : Nat, 0 < c ∧ a.read = .ofCents c

theorem Desk.price_atLeastCent {d : Decimal} {a : Amount} (checked : checkPrice d = .accepted d)
    (stored : Amount.ofDecimal? d = some a) : a.AtLeastCent := by
  have finite := (price_storable checked).finite stored
  obtain ⟨c, e, rfl, nonzero, least, _⟩ := price_accepted checked
  obtain ⟨k, pos, read⟩ := cent_read nonzero least stored finite
  exact ⟨k, pos, read.trans (ofCents_natCast k).symm⟩

def Tables.Priced (t : Tables) : Prop := ∀ r ∈ t.products, r.price.AtLeastCent

theorem Command.Priced.atLeastCent {c : Command} (priced : c.Priced) {done : Bool}
    {cs : List Change} (makes : c.Makes done cs) {ttl : Span} {times : List Moment} {t t' : Tables}
    (commits : Commits ttl times cs t t') (all : t.Priced) : t'.Priced := by
  refine commits.keep (P := Tables.Priced) ?_ all
  intro d member u u' one before
  refine one.prices before fun price a named stored => ?_
  exact Desk.price_atLeastCent (priced.prices makes d member price named) stored

theorem Reachable.priced {w : World} (reached : Reachable Command.Priced w) : w.tables.Priced :=
  reached.invariant (P := Tables.Priced) (by simp [Tables.Priced])
    fun _ priced _ _ makes _ _ _ _ commits all => priced.atLeastCent makes commits all

/- Lines -/

/-- A line as it was wanted, at the price that the active product had in the tables. -/
structure Bought (t : Tables) (wanted : String × Int) (line : OrderLine) : Prop where
  product : line.productCode = wanted.1
  quantity : line.quantity = wanted.2
  positive : 0 < line.quantity
  priced : ∃ r, t.activeProduct? wanted.1 = some r ∧ line.unitPrice = r.price.read
  exactly : ∃ cents : Nat, 0 < cents ∧ line.unitPrice = .ofCents cents ∧
    line.totalPrice = .ofCents (line.quantity * cents)

theorem Bought.earlier {t u : Tables} (h : SameFaces t u) {wanted : String × Int}
    {line : OrderLine} (bought : Bought u wanted line) : Bought t wanted line := by
  obtain ⟨r, found, priced⟩ := bought.priced
  obtain ⟨before, known, same⟩ := h.active found
  exact { bought with priced := ⟨before, known, same ▸ priced⟩ }

theorem Reserved.bought {times : List Moment} {t t' : Tables} {wanted : List (String × Int)}
    {lines : List OrderLine} (h : Reserved times t wanted lines t') (all : t.Priced) :
    List.Forall₂ (Bought t) wanted lines := by
  induction h with
  | nil => exact .nil
  | @cons t u t' code quantity m p total line wanted lines _ positive written priced checked _ ih =>
    obtain ⟨r, q, _, found, shown, _, _, _, rfl⟩ := Tables.restock_ok.mp written
    obtain ⟨_, rfl⟩ := toProduct_ok shown
    obtain ⟨_, _, _, _, stocked⟩ := restock_effect written
    have faces := stocked.sameFaces
    refine .cons ?_ ((ih (faces.prices all)).imp fun _ _ bought => bought.earlier faces)
    obtain ⟨c, pos, read⟩ := all r (activeProduct_mem found).1
    obtain ⟨_, _, rfl⟩ := check_ok checked
    refine ⟨rfl, rfl, positive, ⟨r, found, rfl⟩, c, pos, read, ?_⟩
    dsimp only at priced ⊢
    rw [read] at priced
    rw [lineTotal_exact positive priced]
    congr 1
    push_cast
    rw [Int.toNat_of_nonneg (Int.le_of_lt positive), Int.mul_comm]

/- Totals -/

theorem below_few {n : Nat} (h : (Decimal.ofCents n).below (.ofInt (10 ^ 13)) = .ok true) :
    n < 10 ^ 15 := by
  rw [ofCents_natCast] at h
  have decided : Decimal.finiteBelow false n (-2) false (10 ^ 13) 0 = true := by
    simpa [Decimal.below, Decimal.ofInt] using h
  have wide : Decimal.adjusted (10 ^ 13) 0 = 13 := by decide
  by_contra many
  have nonzero : n ≠ 0 := by omega
  have digits : 15 < digitCount n := by
    have := (digitCount_le_iff (n := n) (k := 15) (by decide)).not
    omega
  have high : ¬Decimal.adjusted n (-2) < 13 := by
    unfold Decimal.adjusted
    omega
  unfold Decimal.finiteBelow at decided
  rw [if_neg (by simp [nonzero])] at decided
  dsimp only at decided
  rw [wide, if_neg high] at decided
  split at decided
  · cases decided
  · exact many (by simpa using decided)

theorem Bought.cents {t : Tables} {wanted : String × Int} {line : OrderLine}
    (bought : Bought t wanted line) :
    ∃ unit total : Nat, 0 < total ∧ unit ≤ total ∧ line.unitPrice = .ofCents unit ∧
      line.totalPrice = .ofCents total := by
  obtain ⟨unit, pos, priced, multiplied⟩ := bought.exactly
  obtain ⟨n, same⟩ := Int.eq_ofNat_of_zero_le (Int.le_of_lt bought.positive)
  have positive := bought.positive
  have n_pos : 0 < n := by omega
  refine ⟨unit, n * unit, Nat.mul_pos n_pos pos, Nat.le_mul_of_pos_left unit n_pos, priced, ?_⟩
  rw [multiplied, same]
  push_cast
  rfl

theorem totals_cents {lines : List OrderLine}
    (each : ∀ line ∈ lines, ∃ k : Nat, 0 < k ∧ line.totalPrice = .ofCents k) :
    ∃ ks : List Nat, (∀ k ∈ ks, 0 < k) ∧
      lines.map (·.totalPrice) = ks.map fun k : Nat => Decimal.ofCents k := by
  induction lines with
  | nil => exact ⟨[], by simp, rfl⟩
  | cons line lines ih =>
    obtain ⟨⟨k, pos, total⟩, rest⟩ := List.forall_mem_cons.mp each
    obtain ⟨ks, positive, totals⟩ := ih rest
    refine ⟨k :: ks, List.forall_mem_cons.mpr ⟨pos, positive⟩, ?_⟩
    rw [List.map_cons, List.map_cons, total, totals]

theorem orderTotal_lines {lines : List OrderLine} {total : Decimal}
    (each : ∀ line ∈ lines, ∃ k : Nat, 0 < k ∧ line.totalPrice = .ofCents k)
    (summed : orderTotal (lines.map (some ·.totalPrice)) = .ok total) :
    ∃ n : Nat, total = .ofCents n ∧ (lines.map (·.totalPrice.inUnits (-2))).sum = n ∧
      ∀ line ∈ lines, ∀ k : Nat, line.totalPrice = .ofCents k → k ≤ n := by
  obtain ⟨ks, positive, totals⟩ := totals_cents each
  have same : lines.map (some ·.totalPrice) = ks.map fun k : Nat => some (Decimal.ofCents k) := by
    have wrapped := congrArg (List.map some) totals
    rw [List.map_map, List.map_map] at wrapped
    exact wrapped
  have counted : lines.map (·.totalPrice.inUnits (-2)) = ks.map fun k : Nat => (k : Int) := by
    have units := congrArg (List.map (Decimal.inUnits (-2))) totals
    rw [List.map_map, List.map_map] at units
    exact units.trans (List.map_congr_left fun k _ => ofCents_units k)
  rw [same] at summed
  refine ⟨ks.sum, ((orderTotal_iff positive).mp summed).2, by rw [counted, Nat.cast_list_sum], ?_⟩
  intro line here k priced
  have member : Decimal.ofCents k ∈ ks.map fun k : Nat => Decimal.ofCents k :=
    totals ▸ priced ▸ List.mem_map_of_mem here
  obtain ⟨j, known, equal⟩ := List.mem_map.mp member
  have units := congrArg (Decimal.inUnits (-2)) equal
  rw [ofCents_units, ofCents_units, Int.natCast_inj] at units
  exact units ▸ List.single_le_sum (fun _ _ => Nat.zero_le _) _ known

/- Orders that are shown -/

/-- An order is in the tables as it was when it was placed, but for its state and the time of
its last change. -/
def Tables.Shows (t : Tables) (order : Order) : Prop :=
  ∃ r ∈ t.orders, ∃ o, t.readOrder r = .ok o ∧
    { o with status := .pending, updatedAt := none } = order

theorem OrderRow.Follows.reads {times : List Moment} {t t' : Tables} {r r' : OrderRow} {o : Order}
    (follows : Follows times r r') (same : t'.linesOf r.id = t.linesOf r.id)
    (read : t.readOrder r = .ok o) :
    ∃ o', t'.readOrder r' = .ok o' ∧ ({ o' with status := .pending, updatedAt := none } : Order) =
      { o with status := .pending, updatedAt := none } := by
  obtain ⟨lines, shown, made⟩ := readOrder_ok.mp read
  obtain ⟨finite, rfl⟩ := toOrder_ok made
  refine ⟨⟨r.id, r.code, r'.status, r.total.read, r.expiresAt, r.createdAt, r'.updatedAt, lines⟩,
    readOrder_ok.mpr ⟨lines, ?_, ?_⟩, rfl⟩
  · rw [follows.id_eq, same]
    exact shown
  · cases follows <;> simp [OrderRow.toOrder, finite]

namespace Tables.Shows

variable {t t' : Tables} {order : Order}

theorem follows {times : List Moment} (h : t.Shows order)
    (followed : List.Forall₂ (Follows times) t.orders t'.orders) (lines : t'.lines = t.lines) :
    t'.Shows order := by
  obtain ⟨r, member, o, read, rfl⟩ := h
  obtain ⟨r', member', follows⟩ := forall₂_mem followed.flip r member
  have same : t'.linesOf r.id = t.linesOf r.id := by rw [linesOf, lines, linesOf]
  obtain ⟨o', read', equal⟩ := follows.reads same read
  exact ⟨r', member', o', read', equal⟩

theorem insert {further : Order} (h : t.Shows order) (inserted : Inserted t further t') :
    t'.Shows order := by
  obtain ⟨r, member, o, read, rfl⟩ := h
  obtain ⟨row, _, _, _, _, orders⟩ := inserted.orders
  obtain ⟨rows, holds, lines⟩ := inserted.lines
  have others : rows.filter (·.orderId = r.id) = [] := by
    rw [List.filter_eq_nil_iff]
    intro l here
    obtain ⟨line, _, held⟩ := forall₂_mem holds l here
    simpa [held.order] using (nextId_fresh t r member).symm
  have same : t'.linesOf r.id = t.linesOf r.id := by
    rw [linesOf, lines, List.filter_append, others, List.append_nil, linesOf]
  have read' : t'.readOrder r = .ok o := by
    rw [readOrder, same]
    exact read
  exact ⟨r, orders ▸ List.mem_append_left _ member, o, read', rfl⟩

theorem commit {ttl : Span} {times : List Moment} {c : Change} (h : t.Shows order)
    (one : Commit ttl times c t t') : t'.Shows order := by
  by_cases other : ∀ id, c ≠ .place id
  · obtain ⟨followed, lines⟩ := one.follows other
    exact h.follows followed lines
  · cases one with
    | place placed =>
      obtain ⟨u, reserved, inserted⟩ := placed.inserted
      have faces := reserved.moved.faces
      have followed : List.Forall₂ (Follows times) t.orders u.orders := by
        rw [faces.orders]
        exact follows_refl times t.orders
      exact (h.follows followed faces.lines).insert inserted
    | _ => exact absurd (fun _ => nofun) other

end Tables.Shows

theorem LineRow.Holds.reads {id : Int} {line : OrderLine} {row : LineRow} (held : row.Holds id line)
    {unit total : Nat} (few : total < 10 ^ 15) (less : unit ≤ total)
    (priced : line.unitPrice = .ofCents unit) (multiplied : line.totalPrice = .ofCents total) :
    row.toLine = .ok line := by
  have first := held.unit
  have second := held.total
  rw [priced, ofCents_natCast] at first
  rw [multiplied, ofCents_natCast] at second
  have unitRead := cents_read (by omega) first
  have totalRead := cents_read few second
  obtain ⟨code, quantity, unitPrice, totalPrice⟩ := line
  simp only [LineRow.toLine, unitRead, totalRead, held.product, held.quantity]
  simp only [ofCents_natCast] at priced multiplied
  rw [priced, multiplied]
  rfl

theorem Placed.total {ttl : Span} {times : List Moment} {t t' : Tables}
    {wanted : List (String × Int)} {order : Order} (placed : Placed ttl times t wanted order t')
    (bought : List.Forall₂ (Bought t) wanted order.lines) :
    ∃ n : Nat, order.totalAmount = .ofCents n ∧
      (order.lines.map (·.totalPrice.inUnits (-2))).sum = n ∧
      ∀ line ∈ order.lines, ∀ k : Nat, line.totalPrice = .ofCents k → k ≤ n := by
  obtain ⟨_, _, summed, _⟩ := placed
  refine orderTotal_lines (fun line here => ?_) summed
  obtain ⟨want, _, one⟩ := forall₂_mem bought line here
  obtain ⟨_, total, pos, _, _, costs⟩ := one.cents
  exact ⟨total, pos, costs⟩

theorem lines_read {t : Tables} {wanted : List (String × Int)} {lines : List OrderLine} {id : Int}
    {rows : List LineRow} {n : Nat} (bought : List.Forall₂ (Bought t) wanted lines)
    (within : ∀ line ∈ lines, ∀ k : Nat, line.totalPrice = .ofCents k → k ≤ n)
    (few : n < 10 ^ 15) (holds : List.Forall₂ (LineRow.Holds id) lines rows) :
    rows.mapM (·.toLine) = .ok lines := by
  rw [mapM_ok]
  have each : ∀ line ∈ lines, ∀ row, LineRow.Holds id line row → row.toLine = .ok line := by
    intro line here row held
    obtain ⟨want, _, one⟩ := forall₂_mem bought line here
    obtain ⟨unit, total, _, less, priced, costs⟩ := one.cents
    have := within line here total costs
    exact held.reads (by omega) less priced costs
  clear bought within few
  induction holds with
  | nil => exact .nil
  | cons held _ ih =>
    obtain ⟨first, rest⟩ := List.forall_mem_cons.mp each
    exact .cons (first _ held) (ih rest)

/-- An order of exact cents, not too many of them, is shown as it was placed. -/
theorem Placed.shows {ttl : Span} {times : List Moment} {t t' : Tables}
    {wanted : List (String × Int)} {order : Order} (sound : Sound t)
    (placed : Placed ttl times t wanted order t')
    (bought : List.Forall₂ (Bought t) wanted order.lines)
    (small : order.totalAmount.below (.ofInt (10 ^ 13)) = .ok true) : t'.Shows order := by
  obtain ⟨n, costs, _, within⟩ := placed.total bought
  rw [costs] at small
  have few := below_few small
  cases placed with
  | @mk u _ _ lines m expires total _ code reserved _ _ _ _ inserted _ lined _ =>
    have sound' := sound.reserve reserved
    obtain ⟨_, rfl, amount, stored, rfl⟩ := insertOrder_ok inserted
    obtain ⟨_, rows, holds, rfl⟩ := insertLines_ok lined
    dsimp only at costs within bought
    rw [costs, ofCents_natCast] at stored
    have totalRead := cents_read few stored
    have old : u.lines.filter (·.orderId = u.nextId) = [] := by
      rw [List.filter_eq_nil_iff]
      exact fun l here => by simpa using sound'.orderId_ne here
    have new : rows.filter (·.orderId = u.nextId) = rows := by
      rw [List.filter_eq_self]
      intro l here
      obtain ⟨line, _, held⟩ := forall₂_mem holds l here
      simpa using held.order
    refine ⟨_, List.mem_append_right _ (List.mem_singleton_self _),
      ⟨u.nextId, code, .pending, total, expires, m, none, lines⟩, readOrder_ok.mpr ⟨lines, ?_, ?_⟩,
      rfl⟩
    · rw [Tables.linesOf, List.filter_append, old, new, List.nil_append]
      exact lines_read bought within few holds
    · rw [costs, ofCents_natCast]
      simp [OrderRow.toOrder, totalRead, Decimal.isFinite]

/- Runs -/

theorem lookUp_shows {w : World} {order : Order} (sound : Sound w.tables)
    (shows : w.tables.Shows order) {e : Event} (alone : e.disruptions.Alone)
    (asked : e.command = .lookUpOrder order.code) :
    (∃ o, w.answer e = .ok (.order o) ∧ { o with status := .pending, updatedAt := none } = order) ∨
      ¬e.disruptions.Quiet ∧ ∃ f, w.answer e = .error f ∧ f.FromOthers := by
  obtain ⟨r, member, o, read, rfl⟩ := shows
  obtain ⟨lines, rfl⟩ := readOrder_values read
  have found : w.tables.orderWithCode? r.code = some r := find_of_nodup sound.orderCodes member
  have ends : (e.command.perform e.settings).Ends (w.facing e)
      (fun a _ => ∃ o, a = .order o ∧ { o with status := .pending, updatedAt := none } =
        (⟨r.id, r.code, .pending, r.total.read, r.expiresAt, r.createdAt, none, lines⟩ : Order))
      (fun f _ => ¬e.disruptions.Quiet ∧ f.FromOthers) := by
    rw [asked]
    refine Service.ends_map.mpr ((Service.orderOf_meets (w := w.facing e) r.code alone).mono ?_ ?_)
    · rintro o v ⟨⟨_, r', named⟩, _⟩
      cases found.symm.trans named.found
      cases read.symm.trans named.read
      exact ⟨_, rfl, rfl⟩
    · rintro f v ⟨(⟨missing, _⟩ | ⟨r', found', hidden⟩) | disturbs, _⟩
      · cases found.symm.trans missing
      · cases found.symm.trans found'
        cases read.symm.trans hidden
      · exact disturbs
  rcases event_ends ends with ⟨_, told, o, rfl, same⟩ | ⟨f, told, loud, others⟩
  · exact .inl ⟨o, told, same⟩
  · exact .inr ⟨loud, f, told, others⟩

/-- A new order has the wanted lines at the prices that its products had, and its amounts are
exact. As long as they are not too large for the tables, every look-up after whatever events
finds the order as it was, but for its state and the time of its last change. -/
theorem orders_keep_their_money {w : World} {e : Event} {wanted : List (String × Int)}
    {order : Order} {later : List Event} (reached : Reachable Command.Priced w)
    (alone : e.disruptions.Alone) (asked : e.command = .createOrder wanted)
    (placed : w.answer e = .ok (.order order))
    (small : order.totalAmount.below (.ofInt (10 ^ 13)) = .ok true)
    (others : ∀ e' ∈ later, e'.disruptions.Alone) :
    List.Forall₂ (Bought w.tables) wanted order.lines ∧
    order.totalAmount = .ofCents (order.lines.map (·.totalPrice.inUnits (-2))).sum ∧
    ∀ e' : Event, e'.disruptions.Alone → e'.command = .lookUpOrder order.code →
      (∃ o, ((w.after e).run later).answer e' = .ok (.order o) ∧
        { o with status := .pending, updatedAt := none } = order) ∨
      ¬e'.disruptions.Quiet ∧
        ∃ f, ((w.after e).run later).answer e' = .error f ∧ f.FromOthers := by
  have made : Placed e.settings.expiry.orderTtl e.times w.tables wanted order
      (w.after e).tables := by
    have ends : (e.command.perform e.settings).Ends (w.facing e)
        (fun a v => ∃ o, a = .order o ∧
          Placed e.settings.expiry.orderTtl e.times w.tables wanted o v.tables)
        (fun _ _ => True) := by
      rw [asked]
      refine Service.ends_map.mpr
        ((Service.createOrder_meets (w := w.facing e) wanted alone).mono ?_ fun _ _ _ => trivial)
      exact fun o v h => ⟨o, rfl, h.1.2⟩
    rcases event_ends ends with ⟨_, told, o, rfl, made⟩ | ⟨f, told, _⟩
    · cases placed.symm.trans told
      exact made
    · cases placed.symm.trans told
  obtain ⟨u, reserved, _⟩ := made.inserted
  have bought := reserved.bought reached.priced
  obtain ⟨n, costs, sum, _⟩ := made.total bought
  refine ⟨bought, by rw [costs, sum], fun e' alone' asked' => ?_⟩
  have sound := reached.sound
  have kept : Sound ((w.after e).run later).tables ∧ ((w.after e).run later).tables.Shows order := by
    refine run_keeps (P := fun t => Sound t ∧ t.Shows order) others ?_
      ⟨sound.place made, made.shows sound bought small⟩
    exact fun ttl times c t t' one before => ⟨before.1.commit one, before.2.commit one⟩
  exact lookUp_shows kept.1 kept.2 alone' asked'

def teaOrder : Order where
  id := 1
  code := "order-1"
  status := .pending
  totalAmount := .ofCents 300
  expiresAt := .minutes 31
  createdAt := .minutes 1
  updatedAt := none
  lines := [⟨"tea", 2, .ofCents 150, .ofCents 300⟩]

def paidTeaEvents : List Event :=
  [.quiet 2 (.payOrder "order-1"), .quiet 3 (.updateProduct "tea" "Tea" (.ofCents 199) none)]

/-- Paid tea keeps the price it was ordered at when tea becomes dearer. -/
theorem paid_tea_keeps_its_price :
    ∃ o, (World.teaOrdered.run paidTeaEvents).answer (.quiet 4 (.lookUpOrder "order-1")) =
        .ok (.order o) ∧
      { o with status := .pending, updatedAt := none } = teaOrder := by
  have offered : Reachable Command.Priced (World.opening.run (teaEvents.take 1)) := by
    refine (Reachable.start rfl).run fun e given => ?_
    rw [List.mem_singleton.mp given]
    exact ⟨quiet_nothing.alone, by rfl⟩
  have placed : (World.opening.run (teaEvents.take 1)).answer
      (.quiet 1 (.createOrder [("tea", 2)])) = .ok (.order teaOrder) := by decide +kernel
  have undisturbed : ∀ e ∈ paidTeaEvents, e.disruptions.Alone := by
    simp [paidTeaEvents, Event.quiet, quiet_nothing.alone]
  have money := orders_keep_their_money offered quiet_nothing.alone rfl placed (by decide +kernel)
    undisturbed
  have found := money.2.2 (.quiet 4 (.lookUpOrder "order-1")) quiet_nothing.alone rfl
  exact found.resolve_right fun loud => loud.1 quiet_nothing

end Stockroom
