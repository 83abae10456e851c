import Stockroom.Proofs.Runs

/-! Failed commands leave no trace in the tables.
There is one exception. Paying or canceling a pending order that is overdue fails, and the
order is expired all the same: the tables are then those that its expiry makes of them, asked
for in its own right under the same circumstances. -/
namespace Stockroom

open Service (fits64 putting)

/- Faults that say nothing about expiry -/

theorem toProduct_kind {r : ProductRow} {f : Fault} (failed : r.toProduct = .error f) :
    f.kind = .invalid := by
  unfold ProductRow.toProduct at failed
  dsimp only at failed
  split at failed
  · cases failed
  · cases failed
    rfl

theorem toLine_kind {row : LineRow} {f : Fault} (failed : row.toLine = .error f) :
    f.kind = .invalid := by
  unfold LineRow.toLine OrderLine.check at failed
  split at failed
  · cases failed
  · cases failed
    rfl

theorem readOrder_kind {t : Tables} {r : OrderRow} {f : Fault}
    (failed : t.readOrder r = .error f) : f.kind = .invalid := by
  rcases readOrder_error.mp failed with unread | ⟨ls, _, unmade⟩
  · obtain ⟨row, _, wrong⟩ := mapM_error unread
    exact toLine_kind wrong
  · unfold OrderRow.toOrder at unmade
    dsimp only at unmade
    split at unmade
    · cases unmade
    · cases unmade
      rfl

theorem Fault.asConflict_kind {code : String} {f : Fault} (kind : f.kind ≠ .refused) :
    f.asConflict code = f := by
  cases f <;> first | rfl | exact absurd rfl kind

theorem Fault.FromOthers.kind_ne {f : Fault} (h : f.FromOthers) : f.kind ≠ .orderExpired := by
  rcases h with h | h | h <;> rw [h] <;> decide

theorem unwritten_kind {t : Tables} {code : String} {quantity : Int} {f : Fault}
    (h : t.Unwritten code (putting quantity) f) :
    f.kind ∈ [.productNotFound, .invalid, .outOfRange, .violated] := by
  cases h with
  | unknown => exact List.mem_cons_self
  | unreadable _ hidden => simp [toProduct_kind hidden]
  | uncomputed _ _ failed => cases failed
  | unfit => simp [Fault.beyond64, Fault.kind]
  | broken => simp [Fault.kind]

theorem Service.Unstocked.unwritten {t : Tables} {code : String}
    {compute : Product → Except Fault Int} {f : Fault} (h : Service.Unstocked t code compute f)
    (plain : ∀ g, t.Unwritten code compute g → g.kind ≠ .refused) : t.Unwritten code compute f := by
  obtain ⟨g, ⟨m, failed⟩, rfl⟩ := h
  have why := Tables.restock_error failed
  rwa [Fault.asConflict_kind (plain g why)]

theorem release_fault {s : Settings.Attempts} {t : Tables} {code : String} {quantity : Int}
    {f : Fault} (h : Service.Retried s (Service.Unstocked t code (putting quantity)) f) :
    ∃ g, t.Unwritten code (putting quantity) g ∧ (f = g ∨ f.kind = .outOfRange) := by
  have plain {f : Fault} (h : Service.Unstocked t code (putting quantity) f) :
      t.Unwritten code (putting quantity) f := by
    refine h.unwritten fun g why refused => ?_
    have kinds := unwritten_kind why
    rw [refused] at kinds
    exact absurd kinds (by decide)
  rcases h with h | ⟨g, h, _, n, _, _, wait⟩
  · exact ⟨f, plain h, .inl rfl⟩
  · exact ⟨g, plain h, .inr (Attempts.waitAfter_kind wait)⟩

theorem stuck_kind {s : Settings.Attempts} {t : Tables} {lines : List OrderLine} {f : Fault}
    (h : Service.Stuck s t lines f) : f.kind ≠ .orderExpired := by
  obtain ⟨_, line, _, _, u, _, _, ⟨_, rfl⟩ | ⟨_, why⟩⟩ := h
  · simp [Fault.nothingReleased, Fault.kind]
  · obtain ⟨g, unwritten, rfl | kind⟩ := release_fault why
    · intro expired
      have kinds := unwritten_kind unwritten
      rw [expired] at kinds
      exact absurd kinds (by decide)
    · rw [kind]
      decide

namespace Service

variable {w : World} {s : Settings.Attempts}

theorem moveOrder_fits {id : Int} {expected target : OrderStatus} {m : Moment} {won : Bool}
    {v : World} (run : moveOrder id expected target m w = .ok won v) : fits64 id = true := by
  obtain ⟨_, u, checked, _⟩ := bind_ok.mp run
  simpa using (turnWith_ok.mp checked).2

theorem moveStatus_fits {id : Int} {expected target : OrderStatus} {m : Moment} {won : Bool}
    {v : World} (run : moveStatus id expected target m w = .ok won v) : fits64 id = true := by
  obtain ⟨stolen, u, _, rest⟩ := bind_ok.mp run
  cases stolen with
  | none => exact moveOrder_fits rest
  | some stolen =>
    obtain ⟨_, u', _, moved⟩ := bind_ok.mp rest
    exact moveOrder_fits moved

theorem expireDue_of_check {order : Order} {remark : String} {v : World}
    (run : checkExpiry s order remark w = .ok true v) :
    expireDue s order w = .ok true v ∧ fits64 order.id = true := by
  unfold checkExpiry at run
  split at run
  · cases run
  obtain ⟨m, u, looked, rest⟩ := bind_ok.mp run
  split at rest
  · cases rest
  rename_i due
  obtain ⟨won, u', expired, rest⟩ := bind_ok.mp rest
  cases won with
  | true =>
    cases rest
    refine ⟨bind_ok.mpr ⟨m, u, looked, ?_⟩, ?_⟩
    · rw [if_neg due]
      exact expired
    · obtain ⟨_, _, _, rest⟩ := bind_ok.mp expired
      obtain ⟨_, _, moved, _⟩ := bind_ok.mp rest
      exact moveStatus_fits moved
  | false =>
    obtain ⟨status, _, _, rest⟩ := bind_ok.mp rest
    dsimp only at rest
    split at rest
    · cases rest
    · cases rest

theorem check_of_exit {exit : Exit} {order before : Order} {v : World}
    (run : exitFrom s exit order w = .ok (true, before) v) :
    before = order ∧ checkExpiry s order exit.remark w = .ok true v := by
  obtain ⟨expired, u, checked, rest⟩ := bind_ok.mp run
  cases expired with
  | true =>
    cases rest
    exact ⟨rfl, checked⟩
  | false =>
    obtain ⟨settled, u', _, rest⟩ := bind_ok.mp rest
    dsimp only at rest
    split at rest
    · obtain ⟨_, _, _, rest⟩ := bind_ok.mp rest
      cases rest
    · cases rest

/-- The stored part of an exit that expires an order is that of its expiry by id. -/
theorem expireOrder_of_exit {exit : Exit} {code : String} {order : Order} {v : World}
    (alone : w.Alone) (unique : w.tables.UniqueIds)
    (run : atomically (orderOf code >>= exitFrom s exit) w = .ok (true, order) v) :
    ∃ r u, Named w.tables code r order ∧ expireOrder s r.id w = .ok true u ∧
      u.tables = v.tables := by
  obtain ⟨v', stored, last⟩ := atomically_ok.mp run
  obtain ⟨before, u, looked, rest⟩ := bind_ok.mp stored
  obtain ⟨rfl, checked⟩ := check_of_exit rest
  obtain ⟨expired, fit⟩ := expireDue_of_check checked
  -- Both ways of asking read the order in two statements, and go on from the same state.
  obtain ⟨first, second, r, named⟩ := orderOf_ok looked
  have same : order.id = r.id := by
    obtain ⟨_, rfl⟩ := readOrder_values named.read
    rfl
  have found : orderWithId r.id w = .ok (some order) u :=
    orderWithId_ok first second (same ▸ fit) (ordersWithIds_of_mem unique named.member) named.read
  have due : expireIfDue s r.id w = .ok (some order) v' :=
    bind_ok.mpr ⟨some order, u, found, bind_ok.mpr ⟨true, v', expired, rfl⟩⟩
  have whole : atomically (expireIfDue s r.id) w = .ok (some order) v :=
    atomically_ok.mpr ⟨v', due, last⟩
  obtain ⟨u', dropped, kept, _⟩ := dropSnapshots_passes (order.lines.map (·.productCode)) v
  refine ⟨r, u', named, bind_ok.mpr ⟨(), w, disruptExpiry_alone r.id alone, ?_⟩, kept⟩
  exact bind_ok.mpr ⟨some order, v, whole, bind_ok.mpr ⟨(), u', dropped, rfl⟩⟩

theorem leavePending_error {exit : Exit} {code : String} {f : Fault} {v : World}
    (alone : w.Alone) (unique : w.tables.UniqueIds)
    (run : leavePending s exit code w = .error f v) :
    (v.tables = w.tables ∧ (Unleft s w.tables w.clock exit code f ∨ w.Disturbs f)) ∨
      (f.kind = .orderExpired ∧ ∃ r order u, Named w.tables code r order ∧
        order.isDue w.clock = true ∧ expireOrder s r.id w = .ok true u ∧
        u.tables = v.tables) := by
  have stored := atomically_meets (storedExit_meets (s := s) (w := w) exit code) alone
  rcases bind_error.mp run with failed | ⟨⟨expired, order⟩, u, ended, rest⟩
  · exact .inl ⟨atomically_restores.of_error failed, (stored.of_error failed).1⟩
  · obtain ⟨⟨r, before, named, exited⟩, _⟩ := stored.of_ok ended
    have dropped := dropSnapshots_passes (order.lines.map (·.productCode)) u
    obtain ⟨u', dropped, kept, _⟩ := dropped
    cases exited with
    | expired due _ =>
      obtain ⟨r', v', named', won, same⟩ := expireOrder_of_exit alone unique ended
      cases named.found.symm.trans named'.found
      have failed : v = u' ∧ f.kind = .orderExpired := by
        rcases bind_error.mp rest with wrong | ⟨_, _, dropped', rest⟩
        · exact absurd (dropped.symm.trans wrong) (by simp)
        · cases dropped.symm.trans dropped'
          cases rest
          exact ⟨rfl, rfl⟩
      refine .inr ⟨failed.2, r, _, v', named, due, won, ?_⟩
      rw [same, failed.1, kept]
    | settled _ _ _ =>
      have noted (order : Order) : Passes (do
          note .orders .info (exit.entry ++ code)
          return order) order := (note_passes _ _ _).bind (passes_pure order)
      cases exit with
      | pay => exact absurd rest (noted _).ne_error
      | cancel => exact absurd rest ((dropSnapshots_passes _).bind (noted _)).ne_error

end Service

/- Commands -/

/-- A pending order that is overdue, and an exit that fails because the order has expired. -/
structure Lapses (w : World) (code : String) (f : Fault) (r : OrderRow) : Prop where
  found : w.tables.orderWithCode? code = some r
  pending : r.status = .pending
  overdue : isOverdue w.clock r.expiresAt = true
  fault : f.kind = .orderExpired

theorem Named.due_iff {t : Tables} {code : String} {r : OrderRow} {order : Order} {m : Moment}
    (named : Named t code r order) :
    order.isDue m = true ↔ r.status = .pending ∧ isOverdue m r.expiresAt = true := by
  obtain ⟨_, rfl⟩ := readOrder_values named.read
  simp [Order.isDue, isDue, OrderStatus.isTerminal]

theorem Lapses.not_unleft {w : World} {s : Settings.Attempts} {exit : Service.Exit}
    {code : String} {f : Fault} {r : OrderRow} (lapses : Lapses w code f r) :
    ¬Unleft s w.tables w.clock exit code f := by
  have found := lapses.found
  have kind := lapses.fault
  rintro (unknown | ⟨known, hidden⟩ | ⟨named, why⟩)
  · rw [found] at unknown
    cases unknown
  · rw [readOrder_kind hidden] at kind
    cases kind
  · cases found.symm.trans named.found
    have due := named.due_iff.mpr ⟨lapses.pending, lapses.overdue⟩
    have pending := pending_of_isDue due
    have waiting : Service.Pending w.tables r.id := ⟨r, named.member, rfl, lapses.pending⟩
    rcases why with ⟨expired, _⟩ | ⟨_, (unfit | ⟨_, _, _, _, stuck⟩) | ⟨gone, _⟩⟩ | ⟨early, _⟩
    · rw [pending] at expired
      cases expired
    · rw [unfit.1] at kind
      cases kind
    · exact stuck_kind stuck kind
    · obtain ⟨_, rfl⟩ := readOrder_values named.read
      exact gone waiting
    · rw [due] at early
      cases early

/-- The trace of an exit that fails: none, or the expiry of the order that lapsed. -/
theorem exit_trace {w v : World} {s : Settings.Attempts} {exit : Service.Exit} {code : String}
    {f : Fault} (alone : w.Alone) (unique : w.tables.UniqueIds)
    (run : Service.leavePending s exit code w = .error f v) :
    (∀ r, Lapses w code f r →
      ∃ u, Service.expireOrder s r.id w = .ok true u ∧ u.tables = v.tables) ∧
    ((∀ r, ¬Lapses w code f r) → v.tables = w.tables) := by
  rcases Service.leavePending_error alone unique run with
    ⟨same, why⟩ | ⟨kind, r, order, u, named, due, expired, made⟩
  · refine ⟨fun r lapses => ?_, fun _ => same⟩
    rcases why with unleft | disturbed
    · exact absurd unleft lapses.not_unleft
    · exact absurd lapses.fault disturbed.2.kind_ne
  · obtain ⟨pending, overdue⟩ := named.due_iff.mp due
    refine ⟨fun r' lapses => ?_, fun no_lapse => ?_⟩
    · cases named.found.symm.trans lapses.found
      exact ⟨u, expired, made⟩
    · exact absurd ⟨named.found, pending, overdue, kind⟩ (no_lapse r)

def Event.expiring (e : Event) (id : Int) : Event := { e with command := .expireOrder id }

theorem event_exit_trace {w : World} {e : Event} {f : Fault} {code : String}
    (alone : e.disruptions.Alone) (unique : w.tables.UniqueIds)
    (failed : w.answer e = .error f) (leaves : e.command.leaves = some code) :
    (∀ r, Lapses (w.facing e) code f r →
      w.answer (e.expiring r.id) = .ok (.expired true) ∧
        (w.after (e.expiring r.id)).tables = (w.after e).tables) ∧
    ((∀ r, ¬Lapses (w.facing e) code f r) → (w.after e).tables = w.tables) := by
  have run := run_of_error failed
  have left : ∃ exit, Service.leavePending e.settings.attempts exit code (w.facing e) =
      .error f (w.after e) := by
    cases asked : e.command with
    | payOrder _ =>
      rw [asked] at run leaves
      cases leaves
      exact ⟨.pay, Service.map_error.mp run⟩
    | cancelOrder _ =>
      rw [asked] at run leaves
      cases leaves
      exact ⟨.cancel, Service.map_error.mp run⟩
    | _ =>
      rw [asked] at leaves
      cases leaves
  obtain ⟨exit, left⟩ := left
  obtain ⟨lapsed, unlapsed⟩ := exit_trace (w := w.facing e) alone unique left
  refine ⟨fun r lapses => ?_, unlapsed⟩
  obtain ⟨u, expired, made⟩ := lapsed r lapses
  obtain ⟨answered, after⟩ := event_of_run (e := e.expiring r.id) (w := w)
    (Service.map_ok (g := Answer.expired) expired)
  exact ⟨answered, after ▸ made⟩

/-- A failed command leaves the tables as they were, except for one case: an exit that comes after
the deadline of a pending order leaves them as the expiry of that order does. -/
theorem failed_command_leaves_no_trace {w : World} (reached : Reachable (fun _ => True) w)
    (e : Event) (alone : e.disruptions.Alone) (single : e.command ≠ .sweep) {f : Fault}
    (failed : w.answer e = .error f) :
    (∀ code r, e.command.leaves = some code → Lapses (w.facing e) code f r →
      w.answer (e.expiring r.id) = .ok (.expired true) ∧
        (w.after (e.expiring r.id)).tables = (w.after e).tables) ∧
    ((∀ code r, e.command.leaves = some code → ¬Lapses (w.facing e) code f r) →
      (w.after e).tables = w.tables) := by
  have unique := reached.sound.ids
  cases leaves : e.command.leaves with
  | none =>
    refine ⟨by simp, fun _ => ?_⟩
    obtain ⟨cs, makes, commits⟩ := event_makes w e alone
    rw [failed] at makes
    cases Command.failed_makes makes single leaves
    exact commits.none
  | some code =>
    obtain ⟨lapsed, unlapsed⟩ := event_exit_trace alone unique failed leaves
    refine ⟨?_, fun no_lapse => unlapsed fun r => no_lapse code r rfl⟩
    rintro _ r ⟨⟩ lapses
    exact lapsed r lapses

/-- A payment for the tea that comes after its deadline fails, and the tables are those that the
expiry of the order makes at that time. -/
theorem late_tea_payment_expires :
    (World.teaOrdered.after (.quiet 40 (.expireOrder 1))).tables =
      (World.teaOrdered.after (.quiet 40 (.payOrder "order-1"))).tables := by
  have traced := failed_command_leaves_no_trace teaOrdered_reached
    (.quiet 40 (.payOrder "order-1")) quiet_nothing.alone (by simp [Event.quiet])
    (f := .orderExpired "Order order-1 has expired. Cannot pay expired order")
    (by decide +kernel)
  have found : (World.teaOrdered.tables.orderWithCode? "order-1").isSome = true := by
    decide +kernel
  obtain ⟨row, stored⟩ := Option.isSome_iff_exists.mp found
  have shown : ∀ r ∈ World.teaOrdered.tables.orders, r.id = 1 ∧ r.status = .pending ∧
      isOverdue (Event.quiet 40 (.payOrder "order-1")).now r.expiresAt = true := by
    decide +kernel
  obtain ⟨first, pending, overdue⟩ := shown row (List.mem_of_find?_eq_some stored)
  have expired := (traced.1 "order-1" row rfl ⟨stored, pending, overdue, rfl⟩).2
  rw [first] at expired
  exact expired

end Stockroom
