import Stockroom.Proofs.Quantities

/-! The tables are sound in every state that commands lead to.
Keys are unique, stocks are within their bounds, and every line belongs to an order and names
a product. A product that an order in force names is on offer: this is what the deletion of
products protects, and what lets stock be given back later. -/
namespace Stockroom

open Service (fits64)

/-- What holds of the tables between commands, and carries every other property. -/
structure Sound (t : Tables) : Prop where
  codes : t.UniqueCodes
  ids : t.UniqueIds
  orderCodes : t.UniqueOrderCodes
  counted : ∀ o ∈ t.orders, 0 < o.id ∧ o.id ≤ t.orders.length
  inStock : t.InStock
  quantities : ∀ l ∈ t.lines, 1 ≤ l.quantity
  owned : ∀ l ∈ t.lines, ∃ o ∈ t.orders, o.id = l.orderId
  named : ∀ l ∈ t.lines, ∃ r ∈ t.products, r.code = l.productCode ∧
    (t.isActive l.orderId = true → r.archived = false)

theorem sound_empty : Sound {} :=
  ⟨List.nodup_nil, List.nodup_nil, List.nodup_nil, by simp, by simp [Tables.InStock], by simp,
    by simp, by simp⟩

theorem isActive_iff {t : Tables} {id : Int} :
    t.isActive id = true ↔ ∃ o ∈ t.orders, o.id = id ∧ o.status ∈ OrderStatus.active := by
  simp [Tables.isActive]

/- Products -/

theorem Sound.update {t : Tables} (sound : Sound t) {code : String}
    {f : ProductRow → ProductRow} (codes : ∀ r, (f r).code = r.code)
    (stocks : ∀ r ∈ t.products, 0 ≤ (f r).stock ∧ (f r).stock < 2 ^ 63)
    (offered : ∀ l ∈ t.lines, l.productCode = code → t.isActive l.orderId = true →
      ∀ r : ProductRow, r.archived = false → (f r).archived = false) :
    Sound (t.updateProduct code f) where
  codes := by
    have same : (t.updateProduct code f).products.map (·.code) = t.products.map (·.code) := by
      unfold Tables.updateProduct
      rw [List.map_map]
      refine List.map_congr_left fun r _ => ?_
      rw [Function.comp_apply]
      split
      · exact codes r
      · rfl
    unfold Tables.UniqueCodes
    rw [same]
    exact sound.codes
  ids := sound.ids
  orderCodes := sound.orderCodes
  counted := sound.counted
  inStock := by
    intro r member
    obtain ⟨before, known, rfl⟩ := List.mem_map.mp member
    split
    · exact stocks before known
    · exact sound.inStock before known
  quantities := sound.quantities
  owned := sound.owned
  named := by
    intro l here
    obtain ⟨r, member, named, use⟩ := sound.named l here
    refine ⟨_, List.mem_map_of_mem member, ?_, fun active => ?_⟩
    · split
      · exact (codes r).trans named
      · exact named
    · split
      · rename_i same
        exact offered l here (named.symm.trans same) active r (use active)
      · exact use active

theorem Sound.create {t t' : Tables} {code name : String} {stock : Int} {price : Decimal}
    (sound : Sound t) (inserted : t.insertProduct code name stock price = .ok t')
    (fit : fits64 stock = true) : Sound t' := by
  obtain ⟨least, free, amount, _, rfl⟩ := insertProduct_ok inserted
  refine ⟨?_, sound.ids, sound.orderCodes, sound.counted, ?_, sound.quantities, sound.owned, ?_⟩
  · refine nodup_append_fresh sound.codes fun r known named => ?_
    exact absurd named (by simpa using List.find?_eq_none.mp free r known)
  · intro r member
    rcases List.mem_append.mp member with known | new
    · exact sound.inStock r known
    · cases List.mem_singleton.mp new
      simp only [fits64, Bool.and_eq_true, decide_eq_true_eq] at fit
      exact ⟨least, fit.2⟩
  · intro l here
    obtain ⟨r, member, rest⟩ := sound.named l here
    exact ⟨r, List.mem_append_left _ member, rest⟩

theorem Sound.describe {t t' : Tables} {code name : String} {price : Decimal} {m : Moment}
    {p : Product} (sound : Sound t) (described : t.redescribe code name price m = .ok (p, t')) :
    Sound t' := by
  obtain ⟨_, _, _, _, _, _, swapped, _⟩ := Tables.redescribe_ok.mp described
  obtain ⟨amount, _, rfl⟩ := swapCatalog_ok swapped
  apply sound.update
  · intro r
    split <;> rfl
  · intro r member
    split <;> exact sound.inStock r member
  · intro _ _ _ _ r offered
    split <;> exact offered

theorem Sound.restock {t t' : Tables} {code : String} {r : ProductRow} {quantity : Int}
    {m : Moment} (sound : Sound t) (h : Restocked t code r quantity m t') : Sound t' := by
  rw [h.after]
  exact sound.update (fun _ => rfl) (fun _ _ => ⟨h.least, h.most⟩) fun _ _ _ _ _ offered => offered

theorem hasOrdersIn_active {t : Tables} {code : String}
    (free : t.hasOrdersIn code OrderStatus.active = false) {l : LineRow} (here : l ∈ t.lines)
    (named : l.productCode = code) : t.isActive l.orderId = false := by
  have unmatched := List.any_eq_false.mp free l here
  simpa [named, Tables.isActive] using unmatched

theorem Sound.withdraw {t t' : Tables} {code : String} {deletion : Service.Deletion}
    (sound : Sound t) (withdrawn : Withdrawn t code deletion t') : Sound t' := by
  cases withdrawn with
  | archived _ free _ =>
    refine sound.update (fun _ => rfl) sound.inStock ?_
    intro l here named active
    rw [hasOrdersIn_active free here named] at active
    cases active
  | removed found free _ removed =>
    obtain ⟨member, named, _⟩ := activeProduct_mem found
    obtain ⟨unnamed, rfl⟩ := removeProduct_ok removed
    have known : (t.product? code).isSome := by
      rw [← named, product_of_mem sound.codes member]
      rfl
    refine ⟨?_, sound.ids, sound.orderCodes, sound.counted, ?_, sound.quantities, sound.owned, ?_⟩
    · exact sound.codes.sublist (List.filter_sublist.map _)
    · exact fun r here => sound.inStock r (List.mem_of_mem_filter here)
    · intro l here
      obtain ⟨r, kept, code, use⟩ := sound.named l here
      refine ⟨r, List.mem_filter.mpr ⟨kept, ?_⟩, code, use⟩
      simpa [code] using unnamed known l here

/- Orders -/

theorem Sound.reserve {times : List Moment} {t t' : Tables} {wanted : List (String × Int)}
    {lines : List OrderLine} (sound : Sound t) (h : Reserved times t wanted lines t') :
    Sound t' := by
  induction h with
  | nil => exact sound
  | cons _ _ written _ _ _ ih =>
    obtain ⟨_, _, _, _, stocked⟩ := restock_effect written
    exact ih (sound.restock stocked)

theorem Sound.release {times : List Moment} {t t' : Tables} {lines : List OrderLine}
    (sound : Sound t) (h : Released times t lines t') : Sound t' := by
  induction h with
  | nil => exact sound
  | cons _ _ written _ ih =>
    obtain ⟨_, _, _, _, stocked⟩ := restock_effect written
    exact ih (sound.restock stocked)

theorem Reserved.offered {times : List Moment} {t t' : Tables} {wanted : List (String × Int)}
    {lines : List OrderLine} (h : Reserved times t wanted lines t') :
    ∀ line ∈ lines, ∃ r ∈ t.products, r.code = line.productCode ∧ r.archived = false := by
  induction h with
  | nil => simp
  | cons _ _ written _ checked _ ih =>
    obtain ⟨r, q, _, _, stocked⟩ := restock_effect written
    obtain ⟨_, _, rfl⟩ := check_ok checked
    refine List.forall_mem_cons.mpr ⟨⟨r, stocked.member, stocked.named, stocked.offered⟩, ?_⟩
    intro line here
    obtain ⟨after, member, named, offered⟩ := ih line here
    obtain ⟨before, known, same⟩ := stocked.sameFaces.row member
    have code : before.code = after.code := congrArg (·.code) same
    have archived : before.archived = after.archived := congrArg (·.archived) same
    exact ⟨before, known, code.trans named, archived.trans offered⟩

structure Inserted (u : Tables) (order : Order) (t' : Tables) : Prop where
  offered : ∀ line ∈ order.lines, ∃ r ∈ u.products, r.code = line.productCode ∧ r.archived = false
  products : t'.products = u.products
  orders : ∃ row : OrderRow, row.id = u.nextId ∧ row.status = .pending ∧
    u.orderWithCode? row.code = none ∧ Amount.ofDecimal? order.totalAmount = some row.total ∧
    t'.orders = u.orders ++ [row]
  lines : ∃ rows, List.Forall₂ (LineRow.Holds u.nextId) order.lines rows ∧
    t'.lines = u.lines ++ rows

theorem Placed.inserted {ttl : Span} {times : List Moment} {t t' : Tables}
    {wanted : List (String × Int)} {order : Order} (h : Placed ttl times t wanted order t') :
    ∃ u, Reserved times t wanted order.lines u ∧ Inserted u order t' := by
  obtain ⟨reserved, _, _, _, _, inserted, _, lined, _⟩ := h
  obtain ⟨free, rfl, amount, stored, rfl⟩ := insertOrder_ok inserted
  obtain ⟨_, rows, holds, rfl⟩ := insertLines_ok lined
  refine ⟨_, reserved, ?_, rfl, ⟨_, rfl, rfl, free, stored, rfl⟩, rows, holds, rfl⟩
  intro line here
  obtain ⟨before, known, named, offered⟩ := reserved.offered line here
  obtain ⟨after, member, same⟩ := reserved.moved.faces.symm.row known
  have code : after.code = before.code := congrArg (·.code) same
  have archived : after.archived = before.archived := congrArg (·.archived) same
  exact ⟨after, member, code.trans named, archived.trans offered⟩

theorem forall₂_mem {α β : Type} {R : α → β → Prop} {xs : List α} {ys : List β}
    (h : List.Forall₂ R xs ys) : ∀ y ∈ ys, ∃ x ∈ xs, R x y := by
  induction h with
  | nil => simp
  | cons first _ ih =>
    refine List.forall_mem_cons.mpr ⟨⟨_, List.mem_cons_self, first⟩, fun y here => ?_⟩
    obtain ⟨x, member, related⟩ := ih y here
    exact ⟨x, List.mem_cons_of_mem _ member, related⟩

theorem Inserted.isActive {u t' : Tables} {order : Order} (h : Inserted u order t') (id : Int) :
    t'.isActive id = (decide (id = u.nextId) || u.isActive id) := by
  obtain ⟨row, named, pending, _, _, orders⟩ := h.orders
  unfold Tables.isActive
  rw [orders, List.any_append, Bool.or_comm]
  simp [named, pending, OrderStatus.active, eq_comm]

theorem Sound.orderId_ne {t : Tables} (sound : Sound t) {l : LineRow} (here : l ∈ t.lines) :
    l.orderId ≠ t.nextId := by
  obtain ⟨o, member, own⟩ := sound.owned l here
  exact own ▸ nextId_fresh t o member

theorem Sound.insert {u t' : Tables} {order : Order} (sound : Sound u)
    (h : Inserted u order t') : Sound t' := by
  have active := h.isActive
  obtain ⟨row, named, _, free, _, orders⟩ := h.orders
  obtain ⟨rows, holds, lines⟩ := h.lines
  refine ⟨?_, ?_, ?_, ?_, ?_, ?_, ?_, ?_⟩
  · unfold Tables.UniqueCodes
    rw [h.products]
    exact sound.codes
  · unfold Tables.UniqueIds
    rw [orders]
    exact nodup_append_fresh sound.ids fun o known => named ▸ nextId_fresh u o known
  · unfold Tables.UniqueOrderCodes
    rw [orders]
    refine nodup_append_fresh sound.orderCodes fun o known same => ?_
    exact absurd same (by simpa using List.find?_eq_none.mp free o known)
  · have first := nextId_pos u
    have next := nextId_le (by omega) fun o known => (sound.counted o known).2
    rw [orders, List.length_append, List.length_singleton]
    refine List.forall_mem_append.mpr ⟨fun o known => ?_, fun o new => ?_⟩
    · have below := sound.counted o known
      omega
    · rw [List.mem_singleton.mp new, named]
      omega
  · unfold Tables.InStock
    rw [h.products]
    exact sound.inStock
  · rw [lines]
    refine List.forall_mem_append.mpr ⟨sound.quantities, fun l new => ?_⟩
    obtain ⟨line, _, held⟩ := forall₂_mem holds l new
    exact held.quantity ▸ held.least
  · rw [lines, orders]
    refine List.forall_mem_append.mpr ⟨fun l here => ?_, fun l new => ?_⟩
    · obtain ⟨o, member, own⟩ := sound.owned l here
      exact ⟨o, List.mem_append_left _ member, own⟩
    · obtain ⟨line, _, held⟩ := forall₂_mem holds l new
      exact ⟨row, List.mem_append_right _ (List.mem_singleton_self row), named.trans held.order.symm⟩
  · rw [lines, h.products]
    refine List.forall_mem_append.mpr ⟨fun l here => ?_, fun l new => ?_⟩
    · obtain ⟨r, member, code, use⟩ := sound.named l here
      refine ⟨r, member, code, fun inForce => use ?_⟩
      simpa [active, sound.orderId_ne here] using inForce
    · obtain ⟨line, known, held⟩ := forall₂_mem holds l new
      obtain ⟨r, member, code, offered⟩ := h.offered line known
      exact ⟨r, member, code.trans held.product.symm, fun _ => offered⟩

theorem Sound.place {ttl : Span} {times : List Moment} {t t' : Tables}
    {wanted : List (String × Int)} {order : Order} (sound : Sound t)
    (h : Placed ttl times t wanted order t') : Sound t' := by
  obtain ⟨u, reserved, inserted⟩ := h.inserted
  exact (sound.reserve reserved).insert inserted

theorem isActive_moved {t : Tables} (unique : t.UniqueIds) {r : OrderRow} (member : r ∈ t.orders)
    (pending : r.status = .pending) (target : OrderStatus) (m : Moment) (id : Int) :
    ({ t with orders := t.orders.map (·.movedTo r.id target m) } : Tables).isActive id =
      if id = r.id then OrderStatus.active.contains target else t.isActive id := by
  by_cases here : id = r.id
  · subst here
    rw [if_pos rfl, Bool.eq_iff_iff, isActive_iff]
    constructor
    · rintro ⟨_, moved, named, active⟩
      obtain ⟨o, known, rfl⟩ := List.mem_map.mp moved
      cases eq_of_nodup unique known member ((movedTo_id ..).symm.trans named)
      rw [movedTo_pending rfl pending] at active
      exact List.contains_iff_mem.mpr active
    · intro active
      refine ⟨_, List.mem_map_of_mem member, movedTo_id .., ?_⟩
      rw [movedTo_pending rfl pending]
      exact List.contains_iff_mem.mp active
  · rw [if_neg here, Bool.eq_iff_iff, isActive_iff, isActive_iff]
    constructor
    · rintro ⟨_, moved, named, active⟩
      obtain ⟨o, known, rfl⟩ := List.mem_map.mp moved
      rw [movedTo_id] at named
      rw [movedTo_other (named ▸ here)] at active
      exact ⟨o, known, named, active⟩
    · rintro ⟨o, known, named, active⟩
      refine ⟨_, List.mem_map_of_mem known, (movedTo_id ..).trans named, ?_⟩
      rw [movedTo_other (named ▸ here)]
      exact active

theorem Sound.move {t : Tables} (sound : Sound t) {r : OrderRow} (member : r ∈ t.orders)
    (pending : r.status = .pending) (target : OrderStatus) (m : Moment) :
    Sound { t with orders := t.orders.map (·.movedTo r.id target m) } where
  codes := sound.codes
  ids := by
    unfold Tables.UniqueIds
    rw [moved_ids]
    exact sound.ids
  orderCodes := by
    unfold Tables.UniqueOrderCodes
    rw [moved_codes]
    exact sound.orderCodes
  counted := by
    intro o moved
    obtain ⟨before, known, rfl⟩ := List.mem_map.mp moved
    rw [movedTo_id, List.length_map]
    exact sound.counted before known
  inStock := sound.inStock
  quantities := sound.quantities
  owned := by
    intro l here
    obtain ⟨o, known, own⟩ := sound.owned l here
    exact ⟨_, List.mem_map_of_mem known, (movedTo_id ..).trans own⟩
  named := by
    intro l here
    obtain ⟨row, known, code, use⟩ := sound.named l here
    refine ⟨row, known, code, fun inForce => use ?_⟩
    rw [isActive_moved sound.ids member pending] at inForce
    split at inForce
    · rename_i own
      exact isActive_iff.mpr ⟨r, member, own.symm, by simp [pending, OrderStatus.active]⟩
    · exact inForce

theorem Left.moved {times : List Moment} {t t' : Tables} {order : Order} {target : OrderStatus}
    (h : Left times t order target t') :
    ∃ m u, u = { t with orders := t.orders.map (·.movedTo order.id target m) } ∧
      (target = .paid ∧ t' = u ∨ target ≠ .paid ∧ Released times u order.lines t') := by
  obtain ⟨_, moved, rest⟩ := h
  exact ⟨_, _, (moveStatus_ok moved).2, rest⟩

theorem Sound.leave {times : List Moment} {t t' : Tables} {r : OrderRow} {order : Order}
    {target : OrderStatus} (sound : Sound t) (member : r ∈ t.orders)
    (read : t.readOrder r = .ok order) (pending : order.status = .pending)
    (left : Left times t order target t') : Sound t' := by
  obtain ⟨ls, rfl⟩ := readOrder_values read
  obtain ⟨m, u, rfl, rest⟩ := left.moved
  have moved := sound.move member pending target m
  rcases rest with ⟨_, rfl⟩ | ⟨_, released⟩
  · exact moved
  · exact moved.release released

/- Commands -/

theorem Sound.commit {ttl : Span} {times : List Moment} {t t' : Tables} {c : Change}
    (sound : Sound t) (h : Commit ttl times c t t') : Sound t' := by
  cases h with
  | create inserted fit => exact sound.create inserted fit
  | describe described => exact sound.describe described
  | correct corrected =>
    obtain ⟨_, _, _, _, stocked⟩ := restock_effect corrected
    exact sound.restock stocked
  | withdraw withdrawn => exact sound.withdraw withdrawn
  | place placed => exact sound.place placed
  | leave member read pending _ left => exact sound.leave member read pending left

theorem Sound.commits {ttl : Span} {times : List Moment} {t t' : Tables} {cs : List Change}
    (sound : Sound t) (h : Commits ttl times cs t t') : Sound t' :=
  h.keep (fun _ _ _ _ one before => before.commit one) sound

end Stockroom
