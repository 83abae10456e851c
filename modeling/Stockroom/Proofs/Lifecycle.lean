import Mathlib.Data.List.Induction
import Mathlib.Data.List.Infix
import Stockroom.Proofs.Runs

/-! The life of an order.
An order starts out pending and leaves that state at most once, for one that it keeps. Its row
counts the moves and shows the time of the last one, so the row alone tells whether and when
the order was moved. Rows are only ever added at the end, under growing ids. -/
namespace Stockroom

namespace OrderRow

/-- A row as it was, or moved out of the pending state at one of the times. -/
inductive Follows (times : List Moment) (r : OrderRow) : OrderRow → Prop where
  | kept : Follows times r r
  | left {target : OrderStatus} {m : Moment} : m ∈ times → r.status = .pending →
      target ≠ .pending →
      Follows times r { r with status := target, version := r.version + 1, updatedAt := some m }

structure Opened (ttl : Span) (times : List Moment) (r : OrderRow) : Prop where
  pending : r.status = .pending
  unmoved : r.version = 0
  untouched : r.updatedAt = none
  created : r.createdAt ∈ times
  expires : r.createdAt.shift? ttl = some r.expiresAt

theorem Follows.mono {times times' : List Moment} {r r' : OrderRow} (sub : times ⊆ times')
    (h : Follows times r r') : Follows times' r r' := by
  cases h with
  | kept => exact .kept
  | left member pending not_pending => exact .left (sub member) pending not_pending

theorem Follows.trans {times : List Moment} {r s t : OrderRow} (first : Follows times r s)
    (second : Follows times s t) : Follows times r t := by
  cases first with
  | kept => exact second
  | left member pending not_pending =>
    cases second with
    | kept => exact .left member pending not_pending
    | left _ waiting _ => exact (not_pending waiting).elim

theorem Follows.id_eq {times : List Moment} {r r' : OrderRow} (h : Follows times r r') :
    r'.id = r.id := by
  cases h <;> rfl

theorem movedTo_follows {times : List Moment} {m : Moment} (member : m ∈ times) (r : OrderRow)
    (id : Int) {target : OrderStatus} (not_pending : target ≠ .pending) :
    Follows times r (r.movedTo id target m) := by
  unfold movedTo
  split
  · rename_i here
    exact .left member here.2 not_pending
  · exact .kept

end OrderRow

open OrderRow (Follows Opened)

/- Rows side by side -/

theorem follows_refl (times : List Moment) (rows : List OrderRow) :
    List.Forall₂ (Follows times) rows rows :=
  List.forall₂_same.mpr fun _ _ => .kept

theorem follows_trans {times : List Moment} {rows rows' rows'' : List OrderRow}
    (first : List.Forall₂ (Follows times) rows rows')
    (second : List.Forall₂ (Follows times) rows' rows'') :
    List.Forall₂ (Follows times) rows rows'' := by
  induction first generalizing rows'' with
  | nil =>
    cases second
    exact .nil
  | cons one _ ih =>
    cases second with
    | cons two rest => exact .cons (one.trans two) (ih rest)

theorem follows_mono {times times' : List Moment} {rows rows' : List OrderRow}
    (sub : times ⊆ times') (h : List.Forall₂ (Follows times) rows rows') :
    List.Forall₂ (Follows times') rows rows' :=
  h.imp fun _ _ one => one.mono sub

theorem follows_map {α : Type} {f : OrderRow → α} {times : List Moment}
    {rows rows' : List OrderRow} (h : List.Forall₂ (Follows times) rows rows')
    (kept : ∀ r r', Follows times r r' → f r' = f r) : rows'.map f = rows.map f := by
  induction h with
  | nil => rfl
  | cons one _ ih => rw [List.map_cons, List.map_cons, ih, kept _ _ one]

/- Changes -/

/-- What may become of the orders while one command runs. -/
inductive Advances (ttl : Span) (times : List Moment) (rows : List OrderRow) :
    List OrderRow → Prop where
  | follow {rows' : List OrderRow} : List.Forall₂ (Follows times) rows rows' →
      Advances ttl times rows rows'
  | open {r : OrderRow} : r.Opened ttl times → (∀ o ∈ rows, o.id < r.id) →
      Advances ttl times rows (rows ++ [r])

section

variable {ttl : Span} {times : List Moment} {t t' : Tables}

theorem Left.follows {order : Order} {target : OrderStatus} (not_pending : target ≠ .pending)
    (h : Left times t order target t') :
    List.Forall₂ (Follows times) t.orders t'.orders ∧ t'.lines = t.lines := by
  obtain @⟨u, _, m, member, moved, rest⟩ := h
  obtain ⟨_, rfl⟩ := moveStatus_ok moved
  have followed : List.Forall₂ (Follows times) t.orders
      (t.orders.map (·.movedTo order.id target m)) := by
    rw [List.forall₂_map_right_iff, List.forall₂_same]
    exact fun r _ => OrderRow.movedTo_follows member r order.id not_pending
  rcases rest with ⟨_, rfl⟩ | ⟨_, released⟩
  · exact ⟨followed, rfl⟩
  · rw [released.moved.faces.orders, released.moved.faces.lines]
    exact ⟨followed, rfl⟩

theorem Commit.follows {d : Change} (h : Commit ttl times d t t') (other : ∀ id, d ≠ .place id) :
    List.Forall₂ (Follows times) t.orders t'.orders ∧ t'.lines = t.lines := by
  have kept (orders : t'.orders = t.orders) (lines : t'.lines = t.lines) :
      List.Forall₂ (Follows times) t.orders t'.orders ∧ t'.lines = t.lines :=
    ⟨orders ▸ follows_refl times t.orders, lines⟩
  cases h with
  | create inserted _ =>
    obtain ⟨_, _, _, _, rfl⟩ := insertProduct_ok inserted
    exact kept rfl rfl
  | describe described =>
    obtain ⟨_, _, _, _, _, _, swapped, _⟩ := Tables.redescribe_ok.mp described
    obtain ⟨_, _, rfl⟩ := swapCatalog_ok swapped
    exact kept rfl rfl
  | correct corrected =>
    obtain ⟨_, _, _, _, stocked⟩ := restock_effect corrected
    exact kept stocked.sameFaces.orders stocked.sameFaces.lines
  | withdraw withdrawn =>
    cases withdrawn with
    | archived => exact kept rfl rfl
    | removed _ _ _ removed =>
      obtain ⟨_, rfl⟩ := removeProduct_ok removed
      exact kept rfl rfl
  | place _ => exact absurd rfl (other _)
  | leave _ _ _ not_pending left => exact left.follows not_pending

theorem Commits.follows {cs : List Change} (h : Commits ttl times cs t t')
    (others : ∀ d ∈ cs, ∀ id, d ≠ .place id) :
    List.Forall₂ (Follows times) t.orders t'.orders ∧ t'.lines = t.lines := by
  refine h.keep (P := fun u => List.Forall₂ (Follows times) t.orders u.orders ∧
    u.lines = t.lines) ?_ ⟨follows_refl _ _, rfl⟩
  rintro d member u u' one ⟨before, lines⟩
  obtain ⟨after, lines'⟩ := one.follows (others d member)
  exact ⟨follows_trans before after, lines'.trans lines⟩

theorem Placed.opens {wanted : List (String × Int)} {order : Order}
    (h : Placed ttl times t wanted order t') : Advances ttl times t.orders t'.orders := by
  obtain ⟨reserved, member, _, _, shifted, inserted, _, lined, _⟩ := h
  obtain ⟨_, _, _, _, rfl⟩ := insertOrder_ok inserted
  obtain ⟨_, _, _, rfl⟩ := insertLines_ok lined
  have same := reserved.moved.faces.orders
  dsimp only
  rw [same]
  refine .open ⟨rfl, rfl, rfl, member, shifted⟩ fun o known => ?_
  exact nextId_above _ o (same ▸ known)

theorem Command.Makes.places {c : Command} {done : Bool} {cs : List Change}
    (makes : c.Makes done cs) : (∀ d ∈ cs, ∀ id, d ≠ .place id) ∨ ∃ id, cs = [.place id] := by
  revert makes
  fun_cases Command.Makes c done cs
  case case5 => exact .inr
  case case8 | case9 => rintro (rfl | ⟨id, rfl⟩) <;> simp
  case case10 => rintro (rfl | rfl) <;> simp
  case case1 | case2 | case3 | case12 =>
    rintro rfl
    simp
  all_goals
    rintro ⟨_, rfl⟩
    simp

end

theorem event_advances (w : World) (e : Event) (alone : e.disruptions.Alone) :
    Advances e.settings.expiry.orderTtl e.times w.tables.orders (w.after e).tables.orders := by
  obtain ⟨cs, makes, commits⟩ := event_makes w e alone
  rcases makes.places with others | ⟨id, rfl⟩
  · exact .follow (commits.follows others).1
  · cases commits.one with
    | place placed => exact placed.opens

/- Runs -/

theorem Advances.increasing {ttl : Span} {times : List Moment} {rows rows' : List OrderRow}
    (h : Advances ttl times rows rows') (sorted : rows.Pairwise fun a b => a.id < b.id) :
    rows'.Pairwise fun a b => a.id < b.id := by
  cases h with
  | follow followed =>
    have ids := List.pairwise_map.mpr sorted
    rw [← follows_map followed fun _ _ one => one.id_eq] at ids
    exact List.pairwise_map.mp ids
  | «open» _ above =>
    refine List.pairwise_append.mpr ⟨sorted, List.pairwise_singleton _ _, fun o known r new => ?_⟩
    rw [List.mem_singleton.mp new]
    exact above o known

theorem Reachable.increasing {admits : Command → Prop} {w : World}
    (reached : Reachable admits w) : w.tables.orders.Pairwise fun a b => a.id < b.id := by
  induction reached with
  | start empty => simp [empty]
  | @next w e _ alone _ ih => exact (event_advances w e alone).increasing ih

/-- The row left the pending state in one of the events, at a time that the clock showed then. -/
def World.LeftIn (w : World) (es : List Event) (r : OrderRow) : Prop :=
  ∃ before e later, es = before ++ e :: later ∧ (∃ m ∈ e.times, r.updatedAt = some m) ∧
    (∃ o ∈ (w.run before).tables.orders, o.id = r.id ∧ o.status = .pending) ∧
    r ∈ (w.run (before ++ [e])).tables.orders

/-- The states that an order was seen in, from before the first event to after the last. -/
def World.statuses (w : World) (es : List Event) (id : Int) : List (Option OrderStatus) :=
  es.inits.map fun part => ((w.run part).tables.orderWithId? id).map (·.status)

theorem World.LeftIn.onward {w : World} {es : List Event} {r : OrderRow} (h : w.LeftIn es r)
    (e : Event) : w.LeftIn (es ++ [e]) r := by
  obtain ⟨before, e', later, rfl, rest⟩ := h
  exact ⟨before, e', later ++ [e], by simp, rest⟩

section

variable {w : World} (empty : w.tables = {})

include empty

/-- A row shows no move at all, or the one move that it made. -/
theorem run_rows_tell {es : List Event} (alone : ∀ e ∈ es, e.disruptions.Alone) :
    ∀ r ∈ (w.run es).tables.orders,
      (r.status = .pending ∧ r.version = 0 ∧ r.updatedAt = none) ∨
        (r.status ≠ .pending ∧ r.version = 1 ∧ w.LeftIn es r) := by
  induction es using List.reverseRecOn with
  | nil => simp [World.run, empty]
  | append_singleton es e ih =>
    obtain ⟨earlier, last⟩ := List.forall_mem_append.mp alone
    have onward (r : OrderRow) (known : r ∈ (w.run es).tables.orders) :
        (r.status = .pending ∧ r.version = 0 ∧ r.updatedAt = none) ∨
          (r.status ≠ .pending ∧ r.version = 1 ∧ w.LeftIn (es ++ [e]) r) :=
      (ih earlier r known).imp_right fun h => ⟨h.1, h.2.1, h.2.2.onward e⟩
    have advances := event_advances (w.run es) e (last e (List.mem_singleton_self e))
    intro r here
    have after := here
    rw [run_append] at here
    generalize ((w.run es).after e).tables.orders = rows at advances here
    cases advances with
    | follow followed =>
      obtain ⟨o, known, follows⟩ := forall₂_mem followed r here
      cases follows with
      | kept => exact onward _ known
      | left member pending not_pending =>
        obtain ⟨_, unmoved, _⟩ := (ih earlier o known).resolve_right fun h => h.1 pending
        have moved : o.version + 1 = 1 := by rw [unmoved, zero_add]
        exact .inr ⟨not_pending, moved, es, e, [], rfl, ⟨_, member, rfl⟩,
          ⟨o, known, rfl, pending⟩, after⟩
    | «open» opened _ =>
      rcases List.mem_append.mp here with known | new
      · exact onward r known
      · rw [List.mem_singleton.mp new]
        exact .inl ⟨opened.pending, opened.unmoved, opened.untouched⟩

end

theorem run_rows_stay (w : World) {before later : List Event}
    (alone : ∀ e ∈ later, e.disruptions.Alone) :
    ∃ kept fresh, (w.run (before ++ later)).tables.orders = kept ++ fresh ∧
      List.Forall₂ (Follows (later.flatMap Event.times)) (w.run before).tables.orders kept := by
  induction later using List.reverseRecOn with
  | nil => exact ⟨_, [], by simp, follows_refl _ _⟩
  | append_singleton later e ih =>
    obtain ⟨earlier, last⟩ := List.forall_mem_append.mp alone
    obtain ⟨kept, fresh, split, followed⟩ := ih earlier
    have advances := event_advances (w.run (before ++ later)) e (last e (List.mem_singleton_self e))
    rw [← List.append_assoc, run_append]
    have since : later.flatMap Event.times ⊆ (later ++ [e]).flatMap Event.times := by simp
    have now : e.times ⊆ (later ++ [e]).flatMap Event.times := by simp
    generalize ((w.run (before ++ later)).after e).tables.orders = rows at advances
    cases advances with
    | follow further =>
      rw [split] at further
      have onward := List.forall₂_take kept.length further
      rw [List.take_left] at onward
      refine ⟨rows.take kept.length, rows.drop kept.length, (List.take_append_drop _ _).symm, ?_⟩
      exact follows_trans (follows_mono since followed) (follows_mono now onward)
    | «open» _ _ =>
      exact ⟨kept, fresh ++ [_], by rw [split, List.append_assoc], follows_mono since followed⟩

/- The course of an order -/

inductive Turns : Option OrderStatus → Option OrderStatus → Prop where
  | stays {s : Option OrderStatus} : Turns s s
  | opens : Turns none (some .pending)
  | leaves {target : OrderStatus} : target ≠ .pending → Turns (some .pending) (some target)

/-- No order for some time, then pending for some time, then what it is now. -/
def Course (past : List (Option OrderStatus)) (now : Option OrderStatus) : Prop :=
  ∃ a b c, past = List.replicate a none ++
      (List.replicate b (some .pending) ++ List.replicate c now) ∧
    (0 < b ↔ now ≠ none) ∧ (0 < c ↔ now ≠ none ∧ now ≠ some .pending)

theorem Course.next {past : List (Option OrderStatus)} {now next : Option OrderStatus}
    (h : Course past now) (turns : Turns now next) : Course (past ++ [next]) next := by
  obtain ⟨a, b, c, rfl, opened, left⟩ := h
  cases turns with
  | opens =>
    obtain rfl : b = 0 := by simpa using opened
    obtain rfl : c = 0 := by simpa using left
    exact ⟨a, 1, 0, by simp, by simp, by simp⟩
  | @leaves target not_pending =>
    obtain rfl : c = 0 := by simpa using left
    exact ⟨a, b, 1, by simp, by simpa using opened, by simpa using not_pending⟩
  | stays =>
    by_cases absent : now = none
    · subst absent
      obtain rfl : b = 0 := by simpa using opened
      obtain rfl : c = 0 := by simpa using left
      exact ⟨a + 1, 0, 0, by simp [List.replicate_succ'], by simp, by simp⟩
    by_cases pending : now = some .pending
    · subst pending
      obtain rfl : c = 0 := by simpa using left
      exact ⟨a, b + 1, 0, by simp [List.replicate_succ'], by simp, by simp⟩
    · refine ⟨a, b, c + 1, by simp [List.replicate_succ'], opened, ?_⟩
      simp [absent, pending]

theorem follows_turns {times : List Moment} {rows rows' : List OrderRow} (id : Int)
    (h : List.Forall₂ (Follows times) rows rows') :
    Turns ((rows.find? (·.id = id)).map (·.status)) ((rows'.find? (·.id = id)).map (·.status)) := by
  induction h with
  | nil => exact .stays
  | @cons r r' rows rows' one _ ih =>
    by_cases here : r.id = id
    · rw [List.find?_cons_of_pos (by simpa using here),
        List.find?_cons_of_pos (by simpa [one.id_eq] using here)]
      cases one with
      | kept => exact .stays
      | left _ pending not_pending =>
        rw [Option.map_some, pending]
        exact .leaves not_pending
    · rw [List.find?_cons_of_neg (by simpa using here),
        List.find?_cons_of_neg (by simpa [one.id_eq] using here)]
      exact ih

theorem Advances.turns {ttl : Span} {times : List Moment} {t t' : Tables} (id : Int)
    (h : Advances ttl times t.orders t'.orders) :
    Turns ((t.orderWithId? id).map (·.status)) ((t'.orderWithId? id).map (·.status)) := by
  unfold Tables.orderWithId?
  generalize t'.orders = rows at h
  cases h with
  | follow followed => exact follows_turns id followed
  | @«open» r opened _ =>
    rw [List.find?_append]
    cases found : t.orders.find? (·.id = id) with
    | some o => exact .stays
    | none =>
      by_cases own : r.id = id
      · rw [Option.none_or, List.find?_cons_of_pos (by simpa using own), Option.map_some,
          opened.pending]
        exact .opens
      · rw [Option.none_or, List.find?_cons_of_neg (by simpa using own)]
        exact .stays

theorem run_course {w : World} (empty : w.tables = {}) {es : List Event}
    (alone : ∀ e ∈ es, e.disruptions.Alone) (id : Int) :
    Course (w.statuses es id) (((w.run es).tables.orderWithId? id).map (·.status)) := by
  induction es using List.reverseRecOn with
  | nil =>
    have start : Course [none] none := ⟨1, 0, 0, rfl, by simp, by simp⟩
    simpa [World.statuses, World.run, empty, Tables.orderWithId?] using start
  | append_singleton es e ih =>
    obtain ⟨earlier, last⟩ := List.forall_mem_append.mp alone
    have advances := event_advances (w.run es) e (last e (List.mem_singleton_self e))
    have seen : w.statuses (es ++ [e]) id = w.statuses es id ++
        [((w.run (es ++ [e])).tables.orderWithId? id).map (·.status)] := by
      simp [World.statuses, List.inits_append]
    rw [seen, run_append]
    exact (ih earlier).next (advances.turns id)

/-- Along every run ids grow in the order of creation and no order goes. An order is pending
exactly as long as its row was never changed; it was changed at most once, by one event and at
a time of that event, and the state it then got is the one it keeps. -/
theorem orders_leave_pending_once {w : World} (empty : w.tables = {}) {es : List Event}
    (alone : ∀ e ∈ es, e.disruptions.Alone) :
    (w.run es).tables.orders.Pairwise (fun a b => a.id < b.id) ∧
    (∀ before later, es = before ++ later → ∃ kept fresh,
      (w.run es).tables.orders = kept ++ fresh ∧
        List.Forall₂ (Follows (later.flatMap Event.times)) (w.run before).tables.orders kept) ∧
    ∀ r ∈ (w.run es).tables.orders,
      (r.status = .pending ↔ r.version = 0 ∧ r.updatedAt = none) ∧
      (r.status ≠ .pending → r.version = 1 ∧ r.status ∈ [.paid, .canceled, .expired] ∧
        w.LeftIn es r) ∧
      ∃ a b c, w.statuses es r.id = List.replicate a none ++
          (List.replicate b (some .pending) ++ List.replicate c (some r.status)) ∧
        0 < b ∧ (0 < c ↔ r.status ≠ .pending) := by
  have reached : Reachable (fun _ => True) (w.run es) :=
    (Reachable.start empty).run fun e given => ⟨alone e given, trivial⟩
  have increase := reached.increasing
  refine ⟨increase, ?_, ?_⟩
  · rintro before later rfl
    exact run_rows_stay w (List.forall_mem_append.mp alone).2
  intro r here
  have unique : (w.run es).tables.UniqueIds :=
    List.pairwise_map.mpr (increase.imp fun less => Int.ne_of_lt less)
  have found : (w.run es).tables.orderWithId? r.id = some r := find_of_nodup unique here
  have course := run_course empty alone r.id
  rw [found] at course
  obtain ⟨a, b, c, seen, opened, left⟩ := course
  refine ⟨?_, ?_, a, b, c, seen, by simpa using opened, by simpa using left⟩
  · rcases run_rows_tell empty alone r here with ⟨pending, unmoved, untouched⟩ | ⟨gone, moved, _⟩
    · exact ⟨fun _ => ⟨unmoved, untouched⟩, fun _ => pending⟩
    · refine ⟨fun pending => (gone pending).elim, fun h => ?_⟩
      omega
  · intro gone
    obtain ⟨_, moved, left⟩ := (run_rows_tell empty alone r here).resolve_left fun h => gone h.1
    refine ⟨moved, ?_, left⟩
    cases status : r.status <;> simp_all

/-- Tea that is paid after it was ordered, in the third event, stays paid in the fourth. -/
theorem paid_tea_stays_paid :
    World.opening.statuses (teaEvents ++ [.quiet 2 (.payOrder "order-1"), .hourlySweep]) 1 =
        [none, none, some .pending, some .paid, some .paid] ∧
      ∀ r ∈ (World.opening.run
          (teaEvents ++ [.quiet 2 (.payOrder "order-1"), .hourlySweep])).tables.orders,
        r.status ≠ .pending → r.version = 1 := by
  refine ⟨by decide +kernel, ?_⟩
  have alone : ∀ e ∈ teaEvents ++ [.quiet 2 (.payOrder "order-1"), .hourlySweep],
      e.disruptions.Alone := by
    simp [teaEvents, Event.quiet, Event.hourlySweep, quiet_nothing.alone]
  have once := orders_leave_pending_once (w := World.opening) rfl alone
  exact fun r here gone => ((once.2.2 r here).2.1 gone).1

end Stockroom
