import Stockroom.Service.Orders
import Stockroom.Proofs.Stock

namespace Stockroom

open Service (fits64 taking putting)

/- Chains of stock writes -/

/-- Stock taken for the wanted products, one after another, with the lines of the order. -/
inductive Reserved (times : List Moment) :
    Tables → List (String × Int) → List OrderLine → Tables → Prop where
  | nil {t : Tables} : Reserved times t [] [] t
  | cons {t u t' : Tables} {code : String} {quantity : Int} {m : Moment} {p : Product}
      {total : Decimal} {line : OrderLine} {wanted : List (String × Int)}
      {lines : List OrderLine} :
      m ∈ times → 0 < quantity → t.restock code (taking quantity) m = .ok (p, u) →
      lineTotal quantity p.price = .ok total →
      OrderLine.check code quantity p.price total = .ok line →
      Reserved times u wanted lines t' →
      Reserved times t ((code, quantity) :: wanted) (line :: lines) t'

inductive Released (times : List Moment) : Tables → List OrderLine → Tables → Prop where
  | nil {t : Tables} : Released times t [] t
  | cons {t u t' : Tables} {m : Moment} {p : Product} {line : OrderLine}
      {lines : List OrderLine} :
      m ∈ times → 0 < line.quantity →
      t.restock line.productCode (putting line.quantity) m = .ok (p, u) →
      Released times u lines t' → Released times t (line :: lines) t'

theorem Released.mono {times times' : List Moment} (sub : times ⊆ times') {t t' : Tables}
    {lines : List OrderLine} (h : Released times t lines t') : Released times' t lines t' := by
  induction h with
  | nil => exact .nil
  | cons member positive written _ ih => exact .cons (sub member) positive written ih

theorem Reserved.mono {times times' : List Moment} (sub : times ⊆ times') {t t' : Tables}
    {wanted : List (String × Int)} {lines : List OrderLine}
    (h : Reserved times t wanted lines t') : Reserved times' t wanted lines t' := by
  induction h with
  | nil => exact .nil
  | cons member positive written priced checked _ ih =>
    exact .cons (sub member) positive written priced checked ih

inductive Placed (ttl : Span) (times : List Moment) (t : Tables)
    (wanted : List (String × Int)) : Order → Tables → Prop where
  | mk {u v t' : Tables} {lines : List OrderLine} {m expires : Moment} {total : Decimal}
      {id : Int} {code : String} :
      Reserved times t wanted lines u → m ∈ times →
      orderTotal (lines.map (some ·.totalPrice)) = .ok total → total.isFinite = true →
      m.shift? ttl = some expires →
      u.insertOrder code total expires m = .ok (id, v) → lines ≠ [] →
      v.insertLines id lines = .ok t' → (∀ line ∈ lines, fits64 line.quantity = true) →
      Placed ttl times t wanted ⟨id, code, .pending, total, expires, m, none, lines⟩ t'

theorem Placed.mono {ttl : Span} {times times' : List Moment} (sub : times ⊆ times')
    {t t' : Tables} {wanted : List (String × Int)} {order : Order}
    (h : Placed ttl times t wanted order t') : Placed ttl times' t wanted order t' := by
  obtain ⟨reserved, member, summed, finite, shifted, inserted, nonempty, lined, fits⟩ := h
  exact .mk (reserved.mono sub) (sub member) summed finite shifted inserted nonempty lined fits

/-- An order moved out of the pending state; its lines are released unless it is paid. -/
inductive Left (times : List Moment) (t : Tables) (order : Order) (target : OrderStatus) :
    Tables → Prop where
  | mk {u t' : Tables} {m : Moment} : m ∈ times →
      (true, u) = t.moveStatus order.id .pending target m →
      (target = .paid ∧ t' = u ∨ target ≠ .paid ∧ Released times u order.lines t') →
      Left times t order target t'

theorem Left.mono {times times' : List Moment} (sub : times ⊆ times') {t t' : Tables}
    {order : Order} {target : OrderStatus} (h : Left times t order target t') :
    Left times' t order target t' := by
  obtain ⟨member, moved, rest⟩ := h
  exact .mk (sub member) moved (rest.imp_right fun h => ⟨h.1, h.2.mono sub⟩)

inductive Unreserved (s : Settings.Attempts) (times : List Moment) (t : Tables) (code : String)
    (quantity : Int) : Fault → Prop where
  | nothing : quantity ≤ 0 → Unreserved s times t code quantity (.nothingRequested code)
  | unstocked {f : Fault} : 0 < quantity →
      Service.Retried s (Service.Unstocked t code (taking quantity)) f →
      Unreserved s times t code quantity f
  | uncosted {u : Tables} {m : Moment} {p : Product} {a : ArithmeticFault} : m ∈ times →
      0 < quantity → t.restock code (taking quantity) m = .ok (p, u) →
      lineTotal quantity p.price = .error a → Unreserved s times t code quantity (.arithmetic a)
  | unchecked {u : Tables} {m : Moment} {p : Product} {total : Decimal} {f : Fault} : m ∈ times →
      0 < quantity → t.restock code (taking quantity) m = .ok (p, u) →
      lineTotal quantity p.price = .ok total →
      OrderLine.check code quantity p.price total = .error f →
      Unreserved s times t code quantity f

theorem Unreserved.mono {s : Settings.Attempts} {times times' : List Moment}
    (sub : times ⊆ times') {t : Tables} {code : String} {quantity : Int} {f : Fault}
    (h : Unreserved s times t code quantity f) : Unreserved s times' t code quantity f := by
  cases h with
  | nothing none => exact .nothing none
  | unstocked positive why => exact .unstocked positive why
  | uncosted member positive written costs => exact .uncosted (sub member) positive written costs
  | unchecked member positive written costs wrong =>
    exact .unchecked (sub member) positive written costs wrong

def Short (s : Settings.Attempts) (times : List Moment) (t : Tables)
    (wanted : List (String × Int)) (f : Fault) : Prop :=
  ∃ u done code quantity rest lines, wanted = done ++ (code, quantity) :: rest ∧
    Reserved times t done lines u ∧ Unreserved s times u code quantity f

def orderCode (n : Nat) : String := s!"order-{n}"

/-- Why an order is not placed, if so many codes were given before. -/
inductive Unplaced (s : Settings) (times : List Moment) (given : Nat) (t : Tables)
    (wanted : List (String × Int)) : Fault → Prop where
  | empty : wanted = [] → Unplaced s times given t wanted .emptyOrder
  | unreserved {f : Fault} : Short s.attempts times t wanted f → Unplaced s times given t wanted f
  | uncosted {u : Tables} {lines : List OrderLine} {a : ArithmeticFault} :
      Reserved times t wanted lines u → orderTotal (lines.map (some ·.totalPrice)) = .error a →
      Unplaced s times given t wanted (.arithmetic a)
  | late {m : Moment} : m ∈ times → m.shift? s.expiry.orderTtl = none →
      Unplaced s times given t wanted .beyondCalendar
  | uninserted {u : Tables} {lines : List OrderLine} {n : Nat} {total : Decimal}
      {m expires : Moment} {f : Fault} : wanted ≠ [] → Reserved times t wanted lines u →
      orderTotal (lines.map (some ·.totalPrice)) = .ok total → given < n →
      Service.Uninserted u (orderCode n) total expires m lines f →
      Unplaced s times given t wanted f

namespace Service

variable {w : World} {s : Settings.Attempts}

/- Creation -/

theorem reserveLine_meets (code : String) (quantity : Int) :
    (reserveLine s code quantity).Meets w
      (fun line t => ∃ m ∈ w.times, ∃ p total, 0 < quantity ∧
        w.tables.restock code (taking quantity) m = .ok (p, t) ∧
        lineTotal quantity p.price = .ok total ∧
        OrderLine.check code quantity p.price total = .ok line)
      (Unreserved s w.times w.tables code quantity) := by
  refine (noting_meets _ _ ((reserve_meets code quantity).mono (fun _ _ h => h) ?_)).bind ?_
  · rintro f (⟨nothing, rfl⟩ | ⟨positive, why⟩)
    · exact .nothing nothing
    · exact .unstocked positive why
  rintro p u ⟨positive, m, shows, written⟩ _
  refine ((ofExcept_meets _).mono (fun _ _ h => h) ?_).bind ?_
  · intro f failed
    cases costs : lineTotal quantity p.price with
    | ok total =>
      rw [costs] at failed
      cases failed
    | error a =>
      rw [costs] at failed
      cases failed
      exact .uncosted shows positive written costs
  rintro total v ⟨same, priced⟩ _
  have priced := mapError_ok.mp priced
  refine (ofExcept_meets _).mono ?_ fun f failed => .unchecked shows positive written priced failed
  rintro line t ⟨same', checked⟩
  refine ⟨m, shows, p, total, positive, ?_, priced, checked⟩
  rw [same', same, written]

theorem reserveLines_meets (wanted : List (String × Int)) :
    (wanted.mapM fun (code, quantity) => reserveLine s code quantity).Meets w
      (fun lines t => Reserved w.times w.tables wanted lines t)
      (Short s w.times w.tables wanted) := by
  induction wanted generalizing w with
  | nil => exact meets_pure .nil
  | cons one wanted ih =>
    obtain ⟨code, quantity⟩ := one
    rw [List.mapM_cons]
    refine ((reserveLine_meets code quantity).mono (fun _ _ h => h) ?_).bind ?_
    · exact fun f why => ⟨w.tables, [], code, quantity, wanted, [], rfl, .nil, why⟩
    rintro line u ⟨m, shows, p, total, positive, written, priced, checked⟩ onward
    refine (ih.mono (fun _ _ h => h) ?_).bind ?_
    · rintro f ⟨v, done, code', quantity', rest, lines, rfl, reserved, why⟩
      refine ⟨v, (code, quantity) :: done, code', quantity', rest, line :: lines, rfl, ?_, ?_⟩
      · exact .cons shows positive written priced checked (reserved.mono onward.times)
      · exact why.mono onward.times
    intro lines v reserved _
    exact meets_pure (.cons shows positive written priced checked (reserved.mono onward.times))

theorem nextOrderCode_meets {bad : Fault → Prop} :
    nextOrderCode.Meets w
      (fun code t => t = w.tables ∧ code = orderCode (w.codesGiven + 1)) bad :=
  fun _ => ⟨⟨rfl, rfl⟩, .of_eq rfl rfl (Nat.le_succ _)⟩

theorem placeOrder_meets {s : Settings} {wanted : List (String × Int)} (nonempty : wanted ≠ []) :
    (placeOrder s wanted).Meets w
      (fun order t => Placed s.expiry.orderTtl w.times w.tables wanted order t)
      (Unplaced s w.times w.codesGiven w.tables wanted) := by
  refine ((reserveLines_meets wanted).mono (fun _ _ h => h) fun _ why => .unreserved why).bind ?_
  intro lines v₁ reserved onward₁
  apply now_meets.bind
  rintro m v₂ ⟨_, shows, same₂⟩ onward₂
  have shows := onward₁.times shows
  apply nextOrderCode_meets.bind
  rintro _ v₃ ⟨same₃, rfl⟩ _
  have fresh : w.codesGiven < v₂.codesGiven + 1 := Nat.lt_succ_of_le (onward₁.trans onward₂).codes
  refine ((ofExcept_meets _).mono (fun _ _ h => h) ?_).bind ?_
  · intro f failed
    cases costs : orderTotal (lines.map (some ·.totalPrice)) with
    | ok total =>
      rw [costs] at failed
      cases failed
    | error a =>
      rw [costs] at failed
      cases failed
      exact .uncosted reserved costs
  rintro total v₄ ⟨same₄, summed⟩ _
  have summed := mapError_ok.mp summed
  refine ((later_meets m _).mono (fun _ _ h => h) ?_).bind ?_
  · rintro _ ⟨rfl, beyond⟩
    exact .late shows beyond
  rintro expires v₅ ⟨same₅, shifted⟩ _
  have same : v₅.tables = v₁.tables := same₅.trans (same₄.trans (same₃.trans same₂))
  refine (insertOrder_meets _ total expires lines m).mono ?_ ?_
  · rintro order t ⟨id, u, inserted, lines, lined, fits, finite, rfl⟩
    exact .mk reserved shows summed finite shifted (same ▸ inserted) lines lined fits
  · exact fun f why => .uninserted nonempty reserved summed fresh (same ▸ why)

theorem createOrder_meets {s : Settings} (wanted : List (String × Int)) :
    (createOrder s wanted).Meets w
      (fun order t => wanted ≠ [] ∧ Placed s.expiry.orderTtl w.times w.tables wanted order t)
      (Unplaced s w.times w.codesGiven w.tables wanted) := by
  unfold createOrder
  refine meets_guard (fun empty => .empty (List.isEmpty_iff.mp empty)) fun not_empty => ?_
  have nonempty : wanted ≠ [] := fun empty => not_empty (List.isEmpty_iff.mpr empty)
  refine Meets.followed ?_ fun order =>
    (dropSnapshots_passes _).bind ((note_passes _ _ _).bind (passes_pure order))
  exact (atomically_meets (placeOrder_meets nonempty)).mono
    (fun _ _ placed => ⟨nonempty, placed⟩) fun _ h => h

theorem createOrder_restores {s : Settings} (wanted : List (String × Int)) :
    (createOrder s wanted).Restores w := by
  unfold createOrder
  apply restores_guard
  exact atomically_restores.followed fun order =>
    (dropSnapshots_passes _).bind ((note_passes _ _ _).bind (passes_pure order))

/- Leaving the pending state -/

def Stuck (s : Settings.Attempts) (t : Tables) (lines : List OrderLine) (f : Fault) : Prop :=
  ∃ done line rest times u, lines = done ++ line :: rest ∧ Released times t done u ∧
    ((line.quantity ≤ 0 ∧ f = .nothingReleased line.productCode) ∨
      0 < line.quantity ∧ Retried s (Unstocked u line.productCode (putting line.quantity)) f)

theorem eachRelease_meets (writer : Journal.Writer) (text : OrderLine → Fault → String)
    (lines : List OrderLine) :
    (lines.forM fun line =>
        noting writer (text line) (release s line.productCode line.quantity)).Meets w
      (fun _ t => Released w.times w.tables lines t) (Stuck s w.tables lines) := by
  induction lines generalizing w with
  | nil => exact meets_pure .nil
  | cons line lines ih =>
    have first := noting_meets writer (text line)
      ((release_meets (s := s) (w := w) line.productCode line.quantity).mono (fun _ _ h => h)
        fun f h => (⟨[], line, lines, [], w.tables, rfl, .nil, h⟩ :
          Stuck s w.tables (line :: lines) f))
    apply first.bind
    rintro _ v ⟨positive, p, m, shows, written⟩ onward
    apply ih.mono
    · exact fun _ t rest => .cons shows positive written (rest.mono onward.times)
    · rintro f ⟨done, line', rest, times, u, rfl, released, why⟩
      refine ⟨line :: done, line', rest, m :: times, u, rfl, ?_, why⟩
      exact .cons List.mem_cons_self positive written
        (released.mono (List.subset_cons_self _ _))

theorem releaseLines_meets (order : Order) :
    (releaseLines s order).Meets w (fun _ t => Released w.times w.tables order.lines t)
      (Stuck s w.tables order.lines) :=
  eachRelease_meets _ (fun line f =>
    s!"Error while releasing {line.quantity} units of product {line.productCode} " ++
      s!"for order {order.code}: {f.message}") order.lines

def Pending (t : Tables) (id : Int) : Prop := ∃ r ∈ t.orders, r.id = id ∧ r.status = .pending

theorem moveStatus_won {t u : Tables} {id : Int} {target : OrderStatus} {m : Moment}
    (h : (true, u) = t.moveStatus id .pending target m) : Pending t id := by
  have found := (congrArg Prod.fst h).symm
  simpa [Tables.moveStatus, Pending] using found

theorem moveStatus_lost {t u : Tables} {id : Int} {target : OrderStatus} {m : Moment}
    (h : (false, u) = t.moveStatus id .pending target m) : u = t ∧ ¬Pending t id := by
  obtain ⟨lost, rfl⟩ := Prod.mk.inj h
  have unmatched : ∀ r ∈ t.orders, ¬(r.id = id ∧ r.status = .pending) := by simpa using lost.symm
  have same : (t.orders.map fun r => if (decide (r.id = id) && decide (r.status = .pending)) = true
      then { r with status := target, version := r.version + 1, updatedAt := some m } else r) =
      t.orders := by
    refine (List.map_congr_left fun r member => ?_).trans (List.map_id _)
    rw [if_neg (by simpa using unmatched r member)]
    rfl
  refine ⟨by rw [same], ?_⟩
  rintro ⟨r, member, here, pending⟩
  exact unmatched r member ⟨here, pending⟩

/-- Why an order, as it was read before, cannot be moved from pending to a state: its id cannot
be stored, or its lines cannot be released. -/
def Stalled (s : Settings.Attempts) (t : Tables) (order : Order) (target : OrderStatus)
    (f : Fault) : Prop :=
  Unfit [order.id] f ∨
    (target ≠ .paid ∧ ∃ m u, (true, u) = t.moveStatus order.id .pending target m ∧
      Stuck s u order.lines f)

/-- Why an order does not get from pending to a state: it cannot be moved, or it is not pending
any more, which is the last fault. -/
def Unmoved (s : Settings.Attempts) (t : Tables) (order : Order) (target : OrderStatus)
    (lost f : Fault) : Prop :=
  Stalled s t order target f ∨ (¬Pending t order.id ∧ f = lost)

theorem expireNow_meets (order : Order) :
    (expireNow s order).Meets w
      (fun won t => (won = true ∧ Left w.times w.tables order .expired t) ∨
        (won = false ∧ t = w.tables ∧ ¬Pending w.tables order.id))
      (Stalled s w.tables order .expired) := by
  apply now_meets.bind
  rintro m v ⟨_, shows, same⟩ start
  refine ((moveStatus_meets order.id .pending .expired m).mono (fun _ _ h => h)
    fun f h => .inl h).bind ?_
  rintro won u ⟨moved, _⟩ onward
  rw [same] at moved
  apply meets_ite
  · rintro rfl
    refine ((releaseLines_meets order).mono (fun _ _ h => h) ?_).bind ?_
    · exact fun f stuck => .inr ⟨by decide, m, u.tables, moved, stuck⟩
    intro _ v' released _
    refine ((note_passes _ _ _).bind (passes_pure true)).meets.mono ?_ fun _ h => h
    rintro _ _ ⟨rfl, rfl⟩
    refine .inl ⟨rfl, .mk shows moved (.inr ⟨by decide, ?_⟩)⟩
    exact released.mono (start.trans onward).times
  · intro behind
    obtain rfl : won = false := by simpa using behind
    refine ((note_passes _ _ _).bind (passes_pure false)).meets.mono ?_ fun _ h => h
    rintro _ _ ⟨rfl, rfl⟩
    obtain ⟨unchanged, gone⟩ := moveStatus_lost moved
    exact .inr ⟨rfl, unchanged, gone⟩

def lostExpiry (t : Tables) (order : Order) (remark : String) : Fault :=
  if (t.orderWithId? order.id).map (·.status) = some .expired then alreadyExpired order.code remark
  else .invalidOrderStatus (s!"Order {order.code} is no longer pending. Current status: " ++
    s!"{statusName ((t.orderWithId? order.id).map (·.status))}")

theorem checkExpiry_meets (order : Order) (remark : String) :
    (checkExpiry s order remark).Meets w
      (fun expired t =>
        (expired = true ∧ order.isDue w.clock = true ∧ Left w.times w.tables order .expired t) ∨
        (expired = false ∧ order.isDue w.clock = false ∧ order.status ≠ .expired ∧ t = w.tables))
      (fun f => (order.status = .expired ∧ f = alreadyExpired order.code remark) ∨
        (order.isDue w.clock = true ∧
          Unmoved s w.tables order .expired (lostExpiry w.tables order remark) f)) := by
  unfold checkExpiry
  refine meets_guard (fun ended => .inl ⟨ended, rfl⟩) fun not_expired => ?_
  apply now_meets.bind
  rintro m v ⟨rfl, _, same⟩ start
  apply meets_ite
  · intro early
    exact meets_pure (.inr ⟨rfl, by simpa using early, not_expired, same⟩)
  intro late
  have due : order.isDue w.clock = true := by simpa using late
  refine ((expireNow_meets order).mono (fun _ _ h => h) ?_).bind ?_
  · exact fun f why => .inr ⟨due, .inl (same ▸ why)⟩
  rintro won u outcome _
  apply meets_ite
  · rintro rfl
    rcases outcome with ⟨_, left⟩ | ⟨lost, _⟩
    · exact meets_pure (.inl ⟨rfl, due, (same ▸ left).mono start.times⟩)
    · cases lost
  · intro lost
    obtain rfl : won = false := by simpa using lost
    obtain ⟨_, same', gone⟩ := outcome.resolve_left (by simp)
    rw [same] at same' gone
    refine ((orderStatus_meets order.id).mono (fun _ _ h => h) ?_).bind ?_
    · exact fun f unfit => .inr ⟨due, .inl (.inl unfit)⟩
    rintro status v' ⟨_, rfl⟩ _
    apply meets_guard
    · intro expired
      refine .inr ⟨due, .inr ⟨gone, ?_⟩⟩
      rw [same'] at expired
      rw [lostExpiry, if_pos expired]
    · intro other
      refine meets_throw (.inr ⟨due, .inr ⟨gone, ?_⟩⟩)
      rw [same'] at other
      rw [lostExpiry, if_neg other, same']

def lostSettlement (t : Tables) (order : Order) (verb : String) : Fault :=
  cannotBe order.code verb (statusName ((t.orderWithId? order.id).map (·.status)))

theorem settle_meets (order : Order) (target : OrderStatus) (verb : String) :
    (settle order target verb).Meets w
      (fun o t => order.status = .pending ∧ ∃ m ∈ w.times,
        (true, t) = w.tables.moveStatus order.id .pending target m ∧
        o = { order with status := target, updatedAt := some m })
      (fun f => (order.status ≠ .pending ∧ f = cannotBe order.code verb order.status.name) ∨
        (order.status = .pending ∧ (Unfit [order.id] f ∨
          ¬Pending w.tables order.id ∧ f = lostSettlement w.tables order verb))) := by
  unfold settle
  refine meets_guard ?_ fun not_terminal => ?_
  · exact fun terminal => .inl ⟨by simpa [OrderStatus.isTerminal] using terminal, rfl⟩
  have pending : order.status = .pending := by simpa [OrderStatus.isTerminal] using not_terminal
  apply now_meets.bind
  rintro m v ⟨_, shows, same⟩ _
  refine ((moveStatus_meets order.id .pending target m).mono (fun _ _ h => h) ?_).bind ?_
  · exact fun f unfit => .inr ⟨pending, .inl unfit⟩
  rintro won u ⟨moved, _⟩ _
  rw [same] at moved
  apply meets_ite
  · rintro rfl
    exact meets_pure ⟨pending, m, shows, moved, rfl⟩
  · intro lost
    obtain rfl : won = false := by simpa using lost
    obtain ⟨unchanged, gone⟩ := moveStatus_lost moved
    refine ((orderStatus_meets order.id).mono (fun _ _ h => h) ?_).bind ?_
    · exact fun f unfit => .inr ⟨pending, .inl unfit⟩
    rintro status v' ⟨_, rfl⟩ _
    refine meets_throw (.inr ⟨pending, .inr ⟨gone, ?_⟩⟩)
    rw [lostSettlement, unchanged]

def Unsettled (s : Settings.Attempts) (t : Tables) (clock : Moment) (exit : Exit) (order : Order)
    (f : Fault) : Prop :=
  (order.status = .expired ∧ f = alreadyExpired order.code exit.remark) ∨
  (order.isDue clock = true ∧
    Unmoved s t order .expired (lostExpiry t order exit.remark) f) ∨
  (order.isDue clock = false ∧ order.status ≠ .expired ∧
    ((order.status ≠ .pending ∧ f = cannotBe order.code exit.verb order.status.name) ∨
      (order.status = .pending ∧
        Unmoved s t order exit.target (lostSettlement t order exit.verb) f)))

/-- What an exit makes of an order, as it was read before: expired if it is due, settled if it
is not. -/
inductive Exited (times : List Moment) (t : Tables) (clock : Moment) (exit : Exit)
    (order : Order) : Bool × Order → Tables → Prop where
  | expired {t' : Tables} : order.isDue clock = true → Left times t order .expired t' →
      Exited times t clock exit order (true, order) t'
  | settled {t' : Tables} {m : Moment} : order.isDue clock = false → order.status = .pending →
      Left times t order exit.target t' →
      Exited times t clock exit order
        (false, { order with status := exit.target, updatedAt := some m }) t'

theorem exitFrom_meets (exit : Exit) (order : Order) :
    (exitFrom s exit order).Meets w (Exited w.times w.tables w.clock exit order)
      (Unsettled s w.tables w.clock exit order) := by
  refine ((checkExpiry_meets order exit.remark).mono (fun _ _ h => h) ?_).bind ?_
  · exact fun f why => why.elim .inl fun h => .inr (.inl h)
  rintro expired v outcome start
  apply meets_ite
  · rintro rfl
    rcases outcome with ⟨_, due, left⟩ | ⟨wrong, _⟩
    · exact meets_pure (.expired due left)
    · cases wrong
  intro unexpired
  obtain rfl : expired = false := by simpa using unexpired
  obtain ⟨_, early, alive, same⟩ := outcome.resolve_left (by simp)
  refine ((settle_meets order exit.target exit.verb).mono (fun _ _ h => h) ?_).bind ?_
  · rintro f (why | ⟨pending, why⟩)
    · exact .inr (.inr ⟨early, alive, .inl why⟩)
    · rw [same] at why
      exact .inr (.inr ⟨early, alive, .inr ⟨pending, why.imp_left .inl⟩⟩)
  rintro settled u ⟨pending, m, shows, moved, rfl⟩ onward
  rw [same] at moved
  cases exit with
  | pay =>
    exact meets_pure (.settled early pending (.mk (start.times shows) moved (.inl ⟨rfl, rfl⟩)))
  | cancel =>
    refine ((releaseLines_meets _).mono (fun _ _ h => h) ?_).bind ?_
    · intro f stuck
      have stalled : Stalled s w.tables order .canceled f := .inr ⟨by decide, m, _, moved, stuck⟩
      exact .inr (.inr ⟨early, alive, .inr ⟨pending, .inl stalled⟩⟩)
    intro _ v' released _
    exact meets_pure (.settled early pending (.mk (start.times shows) moved
      (.inr ⟨by decide, released.mono (start.trans onward).times⟩)))

end Service
end Stockroom
