import Stockroom.Proofs.Commuting
import Stockroom.Proofs.Reserving

/-! Orders that are placed.
An order is accepted exactly if every product has the units that are wanted of it altogether,
the costs stay within the digits of decimals and its lifetime ends on a date. What it takes and
what it costs are sums over the wanted products, so both are the same in any order. -/
namespace Stockroom

open Service (taking)

/- Costs of orders -/

section

variable {t : Tables} {want : String × Int} {line : OrderLine} {wanted : List (String × Int)}
  {lines : List OrderLine}

theorem cost_line (positive : 0 < want.2) : t.cost [want] = (t.lineCents want).toNat := by
  obtain ⟨code, quantity⟩ := want
  obtain ⟨n, rfl⟩ := Int.eq_ofNat_of_zero_le (Int.le_of_lt positive)
  have single : t.cost [(code, (n : Int))] = t.cents code * n := by simp [Tables.cost]
  rw [single, Tables.cents, Tables.lineCents]
  cases t.activeProduct? code with
  | none => exact Nat.zero_mul n
  | some r =>
    rw [Option.elim_some, Option.elim_some]
    rcases Int.le_total 0 (r.price.read.inUnits (-2)) with least | most
    · rw [Int.toNat_mul least (Int.natCast_nonneg n)]
      rfl
    · have nothing : r.price.read.inUnits (-2) * (n : Int) ≤ 0 :=
        Int.mul_nonpos_of_nonpos_of_nonneg most (Int.natCast_nonneg n)
      rw [Int.toNat_of_nonpos nothing, Int.toNat_of_nonpos most, Nat.zero_mul]

theorem cost_perm {wanted' : List (String × Int)} (perm : wanted.Perm wanted') :
    t.cost wanted = t.cost wanted' := (perm.map _).sum_eq

theorem Charged.counts (charged : Charged t want line) (positive : 0 < want.2) :
    Counts (some line.totalPrice) (t.cost [want]) := by
  obtain ⟨s, k, total, cents⟩ := charged.cents
  rw [cost_line positive, cents, total]
  cases s with
  | true =>
    have nothing : (if true then -(k : Int) else k).toNat = 0 := by simp
    rw [nothing]
    exact .skipped (.inl rfl)
  | false =>
    rw [if_neg (by decide), Int.toNat_natCast]
    rcases Nat.eq_zero_or_pos k with rfl | some
    · exact .skipped (.inr rfl)
    · exact .cents (Nat.pos_iff_ne_zero.mp some) (cents_eq k)

theorem Charged.shares (charged : List.Forall₂ (Charged t) wanted lines)
    (positive : ∀ want ∈ wanted, 0 < want.2) :
    ∃ ms, List.Forall₂ Counts (lines.map (some ·.totalPrice)) ms ∧ ms.sum = t.cost wanted := by
  induction charged with
  | nil => exact ⟨[], .nil, rfl⟩
  | @cons want line wanted lines one _ ih =>
    obtain ⟨first, rest⟩ := List.forall_mem_cons.mp positive
    obtain ⟨ms, counts, sum⟩ := ih rest
    refine ⟨t.cost [want] :: ms, .cons (one.counts first) counts, ?_⟩
    rw [List.sum_cons, sum]
    exact (cost_append [want] wanted).symm

theorem orderTotal_cost (charged : List.Forall₂ (Charged t) wanted lines)
    (positive : ∀ want ∈ wanted, 0 < want.2) {total : Decimal} :
    orderTotal (lines.map (some ·.totalPrice)) = .ok total ↔
      t.cost wanted < 10 ^ Decimal.precision ∧ total = .ofCents (t.cost wanted : Nat) := by
  obtain ⟨ms, counts, sum⟩ := Charged.shares charged positive
  rw [orderTotal_cents counts, sum]

end

/- Orders that are accepted -/

/-- Tables accept an order of the wanted products: it is not empty, there is enough in stock, and
neither its costs nor its end are out of bounds. -/
structure Tables.Accepts (t : Tables) (wanted : List (String × Int)) (m : Moment) (ttl : Span) :
    Prop where
  nonempty : wanted ≠ []
  stocked : ∀ want ∈ wanted, t.Stocks wanted want
  lines : ∀ want ∈ wanted, |t.lineCents want| < 10 ^ Decimal.precision
  total : t.cost wanted < 10 ^ Decimal.precision
  lasting : m.shift? ttl ≠ none

section

variable {t u : Tables} {wanted wanted' : List (String × Int)} {lines : List OrderLine}
  {m : Moment} {ttl : Span}

theorem Tables.Stocks.perm {want : String × Int} (perm : wanted.Perm wanted')
    (stocks : t.Stocks wanted want) : t.Stocks wanted' want := by
  obtain ⟨positive, r, found, enough⟩ := stocks
  exact ⟨positive, r, found, wantedUnits_perm perm want.1 ▸ enough⟩

theorem Tables.Accepts.perm (accepts : t.Accepts wanted m ttl) (perm : wanted.Perm wanted') :
    t.Accepts wanted' m ttl where
  nonempty none := accepts.nonempty (List.perm_nil.mp (none ▸ perm))
  stocked want here := (accepts.stocked want (perm.mem_iff.mpr here)).perm perm
  lines want here := accepts.lines want (perm.mem_iff.mpr here)
  total := cost_perm perm ▸ accepts.total
  lasting := accepts.lasting

theorem refusal_stocked :
    t.refusal? [] wanted = none ↔ ∀ want ∈ wanted, t.Stocks wanted want := Tables.refusal_none

theorem Reserved.taken (unique : t.UniqueCodes) (h : Reserved [m] t wanted lines u) :
    u = t.drawn wanted m ∧ (∀ want ∈ wanted, t.Stocks wanted want) ∧
      List.Forall₂ (Charged t) wanted lines := by
  obtain ⟨after, served, charged⟩ := h.served unique (drawn_nil t m).symm rfl
  exact ⟨after, refusal_stocked.mp served, charged⟩

theorem Placed.accepted {t' : Tables} {order : Order} (unique : t.UniqueCodes)
    (nonempty : wanted ≠ []) (h : Placed ttl [m] t wanted order t') :
    t.Accepts wanted m ttl ∧ t'.products = t.products.map (·.drawn wanted m) ∧
      order.totalAmount = .ofCents (t.cost wanted : Nat) := by
  obtain ⟨u, reserved, inserted⟩ := h.inserted
  obtain ⟨rfl, stocked, charged⟩ := reserved.taken unique
  obtain ⟨_, shows, summed, _, shifted, _⟩ := h
  cases List.mem_singleton.mp shows
  obtain ⟨few, total⟩ := (orderTotal_cost charged fun want here => (stocked want here).1).mp summed
  refine ⟨⟨nonempty, stocked, ?_, few, ?_⟩, inserted.products, total⟩
  · exact fun want here => (forall₂_mem charged.flip want here).elim fun _ one => one.2.few
  · rw [shifted]
    nofun

theorem Tables.Accepts.placed {s : Settings} {given : Nat} {f : Fault}
    (accepts : t.Accepts wanted m s.expiry.orderTtl) (unique : t.UniqueCodes)
    (finite : ∀ r ∈ t.products, r.price.isFinite = true) (inStock : t.InStock)
    (fresh : ∀ n, given < n → t.orderWithCode? (orderCode n) = none) :
    ¬Unplaced s [m] given t wanted f := by
  intro why
  have costs {u : Tables} {lines : List OrderLine} (reserved : Reserved [m] t wanted lines u) :
      orderTotal (lines.map (some ·.totalPrice)) = .ok (.ofCents (t.cost wanted : Nat)) := by
    obtain ⟨_, stocked, charged⟩ := reserved.taken unique
    exact (orderTotal_cost charged fun want here => (stocked want here).1).mpr
      ⟨accepts.total, rfl⟩
  cases why with
  | empty none => exact accepts.nonempty none
  | unreserved short =>
    rcases short.refused unique finite inStock with ⟨g, refused, _⟩ | ⟨want, here, costly⟩
    · rw [refusal_stocked.mpr accepts.stocked] at refused
      cases refused
    · exact absurd (accepts.lines want here) (not_lt.mpr costly)
  | uncosted reserved failed =>
    rw [costs reserved] at failed
    cases failed
  | late shows beyond =>
    cases List.mem_singleton.mp shows
    exact accepts.lasting beyond
  | uninserted _ reserved summed next why =>
    cases (costs reserved).symm.trans summed
    exact reserved.inserts inStock accepts.nonempty summed (by rfl) (fresh _ next) why

end

/- Answers to orders -/

namespace Service

variable {w : World} {s : Settings} {wanted : List (String × Int)}

theorem createOrder_refused (still : w.Still) (sound : Sound w.tables)
    (finite : ∀ r ∈ w.tables.products, r.price.isFinite = true)
    (few : ∀ want ∈ wanted, |w.tables.lineCents want| < 10 ^ Decimal.precision) {g : Fault}
    (refused : w.tables.refusal? [] wanted = some g) :
    ∃ f v, createOrder s wanted w = .error f v ∧ (s.attempts.Surfaces g → f = g) := by
  have not_empty : ¬wanted.isEmpty = true := by
    rintro empty
    rw [List.isEmpty_iff.mp empty] at refused
    cases refused
  have ends := reserveLines_meets (s := s.attempts) wanted still.1.alone
  rw [still.times] at ends
  unfold Ends at ends
  split at ends
  · obtain ⟨_, served, _⟩ := ends.1.served sound.codes (drawn_nil w.tables w.now).symm rfl
    rw [refused] at served
    cases served
  · rename_i f v run
    have stopped : closing (placeOrder s wanted) w = .error f v :=
      bind_error.mpr (.inl (bind_error.mpr (.inl run)))
    have undone : atomically (placeOrder s wanted) w = .error f { v with tables := w.tables } := by
      rw [atomically, stopped]
    refine ⟨f, { v with tables := w.tables }, ?_, fun surfaces => ?_⟩
    · unfold createOrder
      rw [if_neg not_empty]
      exact bind_error.mpr (.inl undone)
    · have short := ends.1.resolve_right fun disturbs => disturbs.1 still.1
      rcases short.refused sound.codes finite sound.inStock with
        ⟨g', same, told⟩ | ⟨want, here, costly⟩
      · cases refused.symm.trans same
        exact told surfaces
      · exact absurd (few want here) (not_lt.mpr costly)

/-- An order is placed exactly if it is acceptable, and changes nothing if it is not. -/
theorem createOrder_accepts (still : w.Still) (sound : Sound w.tables) (numbered : w.Numbered)
    (finite : ∀ r ∈ w.tables.products, r.price.isFinite = true) :
    (createOrder s wanted).Ends w
      (fun o v => w.tables.Accepts wanted w.now s.expiry.orderTtl ∧
        v.tables.products = w.tables.products.map (·.drawn wanted w.now) ∧
        o.totalAmount = .ofCents (w.tables.cost wanted : Nat))
      (fun _ v => ¬w.tables.Accepts wanted w.now s.expiry.orderTtl ∧ v.tables = w.tables) := by
  have met := createOrder_meets (s := s) (w := w) wanted
  rw [still.times] at met
  refine ((met still.1.alone).and (createOrder_restores wanted)).mono ?_ ?_
  · rintro o v ⟨⟨⟨nonempty, placed⟩, _⟩, _⟩
    exact placed.accepted sound.codes nonempty
  · rintro f v ⟨⟨why | disturbed, _⟩, same⟩
    · exact ⟨fun accepts => accepts.placed sound.codes finite sound.inStock
        (fun _ next => numbered.fresh next) why, same⟩
    · exact absurd still.1 disturbed.1

end Service

theorem order_answered {w : World} (reached : Reachable (fun _ => True) w)
    (finite : ∀ r ∈ w.tables.products, r.price.isFinite = true) {e : Event} (still : e.Still)
    {wanted : List (String × Int)} (asked : e.command = .createOrder wanted) :
    (∃ o, w.answer e = .ok (.order o) ∧
      w.tables.Accepts wanted e.now e.settings.expiry.orderTtl ∧
      (w.after e).tables.products = w.tables.products.map (·.drawn wanted e.now) ∧
      o.totalAmount = .ofCents (w.tables.cost wanted : Nat)) ∨
    ∃ f, w.answer e = .error f ∧ ¬w.tables.Accepts wanted e.now e.settings.expiry.orderTtl ∧
      (w.after e).tables = w.tables := by
  have calm : (w.facing e).Still := ⟨still.quiet, still.stands⟩
  have placing : (e.command.perform e.settings).Ends (w.facing e)
      (fun a v => ∃ o, a = .order o ∧
        w.tables.Accepts wanted e.now e.settings.expiry.orderTtl ∧
        v.tables.products = w.tables.products.map (·.drawn wanted e.now) ∧
        o.totalAmount = .ofCents (w.tables.cost wanted : Nat))
      (fun _ v => ¬w.tables.Accepts wanted e.now e.settings.expiry.orderTtl ∧
        v.tables = w.tables) := by
    rw [asked]
    refine Service.ends_map.mpr (Service.Ends.mono (Service.createOrder_accepts calm reached.sound
      reached.numbered finite) ?_ fun _ _ h => h)
    exact fun o _ placed => ⟨o, rfl, placed⟩
  rcases event_ends placing with ⟨_, told, o, rfl, placed⟩ | ⟨f, told, refused⟩
  · exact .inl ⟨o, told, placed⟩
  · exact .inr ⟨f, told, refused⟩

theorem order_reordered {w : World} (reached : Reachable (fun _ => True) w)
    (finite : ∀ r ∈ w.tables.products, r.price.isFinite = true) {e e' : Event} (still : e.Still)
    (still' : e'.Still) (now : e'.now = e.now)
    (ttl : e'.settings.expiry.orderTtl = e.settings.expiry.orderTtl)
    {wanted wanted' : List (String × Int)} (perm : wanted.Perm wanted')
    (asked : e.command = .createOrder wanted) (asked' : e'.command = .createOrder wanted') :
    ((∃ o, w.answer e = .ok (.order o)) ↔ ∃ o, w.answer e' = .ok (.order o)) ∧
      (w.after e).tables.products = (w.after e').tables.products ∧
      ∀ o o', w.answer e = .ok (.order o) → w.answer e' = .ok (.order o') →
        o.totalAmount = o'.totalAmount := by
  have second := order_answered reached finite still' asked'
  rw [now, ttl] at second
  rcases order_answered reached finite still asked with
    ⟨o, told, accepts, products, total⟩ | ⟨f, told, refused, same⟩
  · rcases second with ⟨o', told', _, products', total'⟩ | ⟨_, _, refused', _⟩
    · rw [told, told', products, products']
      refine ⟨iff_of_true ⟨o, rfl⟩ ⟨o', rfl⟩, ?_, ?_⟩
      · exact List.map_congr_left fun r _ => drawn_perm perm e.now r
      · rintro _ _ ⟨⟩ ⟨⟩
        rw [total, total', cost_perm perm]
    · exact absurd (accepts.perm perm) refused'
  · rcases second with ⟨_, _, accepts', _⟩ | ⟨f', told', _, same'⟩
    · exact absurd (accepts'.perm perm.symm) refused
    · rw [told, told', same, same']
      refine ⟨iff_of_false ?_ ?_, rfl, ?_⟩
      · rintro ⟨_, ⟨⟩⟩
      · rintro ⟨_, ⟨⟩⟩
      · rintro _ _ ⟨⟩

theorem order_refused {w : World} (reached : Reachable (fun _ => True) w)
    (finite : ∀ r ∈ w.tables.products, r.price.isFinite = true) {e : Event} (still : e.Still)
    {wanted : List (String × Int)} (asked : e.command = .createOrder wanted)
    (few : ∀ want ∈ wanted, |w.tables.lineCents want| < 10 ^ Decimal.precision) {f : Fault}
    (refused : w.tables.refusal? [] wanted = some f) :
    ∃ g, w.answer e = .error g ∧ (e.settings.attempts.Surfaces f → g = f) := by
  obtain ⟨g, v, run, told⟩ := Service.createOrder_refused (s := e.settings)
    (w := w.facing e) ⟨still.quiet, still.stands⟩ reached.sound finite few refused
  refine ⟨g, ?_, told⟩
  have performed : e.command.perform e.settings (w.facing e) = .error g v := by
    rw [asked]
    exact Service.map_error.mpr run
  rw [World.answer, performed]

/-- An order takes of every product what is wanted of it altogether, in whatever order it asks.
It is placed exactly if it is acceptable; it changes nothing if it is not; the same products
wanted in another order are answered alike, for the same total, and leave the same stock. As
long as no line costs too much for decimals, the order fails with the fault of the first product
that is not served from what those before it left in stock. -/
theorem order_takes_units_per_product {w : World} (reached : Reachable (fun _ => True) w)
    (finite : ∀ r ∈ w.tables.products, r.price.isFinite = true) {e : Event} (still : e.Still)
    {wanted : List (String × Int)} (asked : e.command = .createOrder wanted) :
    ((∃ o, w.answer e = .ok (.order o)) ↔
      w.tables.Accepts wanted e.now e.settings.expiry.orderTtl) ∧
    (∀ o, w.answer e = .ok (.order o) →
      (w.after e).tables.products = w.tables.products.map (·.drawn wanted e.now) ∧
        o.totalAmount = .ofCents (w.tables.cost wanted : Nat)) ∧
    (∀ f, w.answer e = .error f → (w.after e).tables = w.tables) ∧
    (∀ e' : Event, e'.Still → e'.now = e.now →
      e'.settings.expiry.orderTtl = e.settings.expiry.orderTtl → ∀ wanted',
      wanted.Perm wanted' → e'.command = .createOrder wanted' →
      ((∃ o, w.answer e = .ok (.order o)) ↔ ∃ o, w.answer e' = .ok (.order o)) ∧
      (w.after e).tables.products = (w.after e').tables.products ∧
      ∀ o o', w.answer e = .ok (.order o) → w.answer e' = .ok (.order o') →
        o.totalAmount = o'.totalAmount) ∧
    ∀ f, (∀ want ∈ wanted, |w.tables.lineCents want| < 10 ^ Decimal.precision) →
      w.tables.refusal? [] wanted = some f →
      ∃ g, w.answer e = .error g ∧ (e.settings.attempts.Surfaces f → g = f) := by
  have first := order_answered reached finite still asked
  refine ⟨?_, ?_, ?_, ?_, ?_⟩
  · rcases first with ⟨o, told, accepts, _⟩ | ⟨f, told, refused, _⟩
    · exact iff_of_true ⟨o, told⟩ accepts
    · rw [told]
      refine iff_of_false ?_ refused
      rintro ⟨_, ⟨⟩⟩
  · intro o told
    rw [told] at first
    obtain ⟨_, ⟨⟩, _, placed⟩ | ⟨_, ⟨⟩, _⟩ := first
    exact placed
  · intro f told
    rw [told] at first
    obtain ⟨_, ⟨⟩, _⟩ | ⟨_, _, _, same⟩ := first
    exact same
  · intro e' still' now ttl wanted' perm asked'
    exact order_reordered reached finite still still' now ttl perm asked asked'
  · intro f few refused
    exact order_refused reached finite still asked few refused

/-- The three units of tea that are left can be ordered in two parts, whichever comes first. A
fourth one is missed when the second part is wanted. -/
theorem last_tea_goes_in_parts :
    let w := World.teaOrdered
    let order := fun wanted => Event.quiet 2 (.createOrder wanted)
    (∃ o, w.answer (order [("tea", 1), ("tea", 2)]) = .ok (.order o) ∧
      o.totalAmount = .ofCents 450) ∧
    (w.after (order [("tea", 1), ("tea", 2)])).tables.products.map (·.stock) = [0] ∧
    (w.after (order [("tea", 1), ("tea", 2)])).tables.products =
      (w.after (order [("tea", 2), ("tea", 1)])).tables.products ∧
    w.answer (order [("tea", 2), ("tea", 2)]) = .error (.insufficientStock "tea" 1 2) := by
  intro w order
  have finite : ∀ r ∈ w.tables.products, r.price.isFinite = true := by decide +kernel
  have still (wanted : List (String × Int)) : (order wanted).Still := ⟨quiet_nothing, rfl⟩
  have accepts : w.tables.Accepts [("tea", 1), ("tea", 2)] (.minutes 2)
      (order []).settings.expiry.orderTtl := by
    refine ⟨by decide, refusal_stocked.mp ?_, ?_, ?_, ?_⟩ <;> decide +kernel
  obtain ⟨answered, placed, _, reordered, _⟩ :=
    order_takes_units_per_product teaOrdered_reached finite (still [("tea", 1), ("tea", 2)]) rfl
  obtain ⟨o, told⟩ := answered.mpr accepts
  obtain ⟨products, total⟩ := placed o told
  have cost : w.tables.cost [("tea", 1), ("tea", 2)] = 450 := by decide +kernel
  refine ⟨⟨o, told, by rw [total, cost]; rfl⟩, ?_, ?_, ?_⟩
  · rw [products]
    decide +kernel
  · exact (reordered _ (still [("tea", 2), ("tea", 1)]) rfl rfl _ (.swap _ _ _) rfl).2.1
  · obtain ⟨_, _, _, _, refused⟩ :=
      order_takes_units_per_product teaOrdered_reached finite (still [("tea", 2), ("tea", 2)]) rfl
    obtain ⟨f, told, surfaced⟩ := refused (.insufficientStock "tea" 1 2)
      (by decide +kernel) (by decide +kernel)
    rw [told, surfaced (surfaces_plain rfl (by decide))]

end Stockroom
