import Stockroom.Proofs.Backlog
import Stockroom.Proofs.Commuting

/-! Four ways to the expiry of an order.
A payment that comes too late, a cancellation that does, the expiry by id and a sweep check the
deadline in places of their own, and each tells its caller something else. What they leave in
the tables is one and the same function of the tables, the order and the time. -/
namespace Stockroom

open Service (fits64)

/- What the end of an order leaves -/

namespace Tables

def restored (t : Tables) (id : Int) (m : Moment) (r : ProductRow) : ProductRow :=
  if (t.linesOf id).any (·.productCode = r.code) then
    { r with stock := r.stock + t.ordered id r.code, updatedAt := some m }
  else r

/-- The tables after an order left the pending state. Unless it was paid, all that it named is
back in stock. -/
def ended (t : Tables) (id : Int) (target : OrderStatus) (m : Moment) : Tables :=
  t.patched (fun r => if target = .paid then r else t.restored id m r) (·.movedTo id target m)

end Tables

def OrderRow.Overdue (r : OrderRow) (m : Moment) : Prop := r.status = .pending ∧ r.expiresAt < m

instance (r : OrderRow) (m : Moment) : Decidable (r.Overdue m) :=
  inferInstanceAs (Decidable (r.status = .pending ∧ r.expiresAt < m))

theorem names_rows {rows : List LineRow} {lines : List OrderLine}
    (agree : List.Forall₂ (fun row line => row.toLine = .ok line) rows lines) (code : String) :
    lines.any (·.productCode = code) = rows.any (·.productCode = code) := by
  induction agree with
  | nil => rfl
  | cons first _ ih => rw [List.any_cons, List.any_cons, ih, (toLine_ok first).1]

section

variable {t t' : Tables} {r : OrderRow} {order : Order}

theorem returned_restored (read : t.readOrder r = .ok order) (m : Moment) (p : ProductRow) :
    p.returned order.lines m = t.restored r.id m p := by
  have total := units_read read p.code
  obtain ⟨lines, shown, made⟩ := readOrder_ok.mp read
  obtain ⟨_, rfl⟩ := toOrder_ok made
  rw [ProductRow.returned, Tables.restored, total, names_rows (mapM_ok.mp shown)]

/-- At a given time there is only one way for an order to leave the pending state for another. -/
theorem Left.ended {m : Moment} {target : OrderStatus} (left : Left [m] t order target t')
    (unique : t.UniqueCodes) (read : t.readOrder r = .ok order) :
    t' = t.ended r.id target m := by
  obtain ⟨shows, moved, rest⟩ := left
  cases List.mem_singleton.mp shows
  obtain ⟨_, rfl⟩ := moveStatus_ok moved
  have own := readOrder_id read
  rcases rest with ⟨rfl, rfl⟩ | ⟨unpaid, released⟩
  · simp [Tables.ended, Tables.patched, own]
  · have products := released.products unique
    have faces := released.moved.faces
    simp only [returned_restored read] at products
    obtain ⟨_, _, _⟩ := t'
    cases products
    cases faces.orders
    cases faces.lines
    simp [Tables.ended, Tables.patched, unpaid, own]

theorem isDue_overdue (read : t.readOrder r = .ok order) (m : Moment) :
    order.isDue m = decide (r.Overdue m) := by
  obtain ⟨_, rfl⟩ := readOrder_values read
  rw [Bool.eq_iff_iff, decide_eq_true_iff]
  simp [Order.isDue, isDue, isOverdue, OrderStatus.isTerminal, OrderRow.Overdue]

end

/- Exits -/

def Service.Exit.command : Service.Exit → String → Command
  | .pay => .payOrder
  | .cancel => .cancelOrder

theorem exit_perform (s : Settings) (exit : Service.Exit) (code : String) :
    (exit.command code).perform s = .order <$> Service.leavePending s.attempts exit code := by
  cases exit <;> rfl

/-- How an exit ends that finds its order, by the state of the order and, while that is pending,
by its deadline. -/
inductive Concluded (t : Tables) (r : OrderRow) (now : Moment) (exit : Service.Exit) :
    Except Fault Answer → Tables → Prop where
  | settled {o : Order} : r.status = .pending → now ≤ r.expiresAt →
      Concluded t r now exit (.ok (.order o)) (t.ended r.id exit.target now)
  | lapsed {f : Fault} : r.status = .pending → r.expiresAt < now → f.kind = .orderExpired →
      Concluded t r now exit (.error f) (t.ended r.id .expired now)
  | expired {f : Fault} : r.status = .expired → f.kind = .orderExpired →
      Concluded t r now exit (.error f) t
  | closed {f : Fault} : r.status = .paid ∨ r.status = .canceled →
      f.kind = .invalidOrderStatus → Concluded t r now exit (.error f) t

theorem Concluded.overdue {t t' : Tables} {r : OrderRow} {now : Moment} {exit : Service.Exit}
    {a : Except Fault Answer} (h : Concluded t r now exit a t') (overdue : r.Overdue now) :
    (∃ f, a = .error f ∧ f.kind = .orderExpired) ∧ t' = t.ended r.id .expired now := by
  obtain ⟨pending, late⟩ := overdue
  cases h with
  | settled _ early => exact absurd late (Nat.not_lt_of_le early)
  | lapsed _ _ kind => exact ⟨⟨_, rfl, kind⟩, rfl⟩
  | expired expired _ =>
    rw [pending] at expired
    cases expired
  | closed closed _ =>
    rw [pending] at closed
    simp at closed

theorem World.Still.clock {w : World} (still : w.Still) : w.clock = w.now := by
  rw [World.clock, still.2]
  rfl

theorem unmoved_overflows {s : Settings.Attempts} {t : Tables} {r : OrderRow} {order : Order}
    {target : OrderStatus} {lost f : Fault} (sound : Sound t) (readable : Readable t)
    (member : r ∈ t.orders) (fit : fits64 r.id = true) (pending : r.status = .pending)
    (read : t.readOrder r = .ok order) (why : Service.Unmoved s t order target lost f) :
    target ≠ .paid ∧ t.Overflows r.id := by
  have own := readOrder_id read
  rcases why with (⟨_, n, named, unfit⟩ | ⟨unpaid, m, u, moved, stuck⟩) | ⟨gone, _⟩
  · rw [List.mem_singleton.mp named, own, fit] at unfit
    cases unfit
  · exact ⟨unpaid, (stuck_overflows sound readable member pending read moved stuck).2⟩
  · exact absurd ⟨r, member, own.symm, pending⟩ gone

theorem unsettled_concludes {s : Settings.Attempts} {t : Tables} {r : OrderRow} {order : Order}
    {now : Moment} {exit : Service.Exit} {f : Fault} (sound : Sound t) (readable : Readable t)
    (member : r ∈ t.orders) (fit : fits64 r.id = true)
    (room : r.status = .pending → r.expiresAt < now ∨ exit = .cancel → ¬t.Overflows r.id)
    (read : t.readOrder r = .ok order) (why : Service.Unsettled s t now exit order f) :
    Concluded t r now exit (.error f) t := by
  have status : order.status = r.status := by
    obtain ⟨_, rfl⟩ := readOrder_values read
    rfl
  unfold Service.Unsettled at why
  rw [isDue_overdue read, status] at why
  rcases why with ⟨expired, rfl⟩ | ⟨due, why⟩ | ⟨_, alive, ⟨not_pending, rfl⟩ | ⟨pending, why⟩⟩
  · exact .expired expired rfl
  · obtain ⟨pending, late⟩ := of_decide_eq_true due
    obtain ⟨_, full⟩ := unmoved_overflows sound readable member fit pending read why
    exact absurd full (room pending (.inl late))
  · refine .closed ?_ rfl
    cases stands : r.status <;> simp_all
  · obtain ⟨unpaid, full⟩ := unmoved_overflows sound readable member fit pending read why
    cases exit with
    | pay => exact absurd rfl unpaid
    | cancel => exact absurd full (room pending (.inr rfl))

namespace Service

variable {w : World} {r : OrderRow} {s : Settings.Attempts} (still : w.Still)
  (sound : Sound w.tables) (readable : Readable w.tables) (member : r ∈ w.tables.orders)
  (fit : fits64 r.id = true)

include still sound readable member fit

theorem leavePending_concludes (exit : Exit)
    (room : r.status = .pending → r.expiresAt < w.now ∨ exit = .cancel →
      ¬w.tables.Overflows r.id) :
    (leavePending s exit r.code).Ends w
      (fun o v => Concluded w.tables r w.now exit (.ok (.order o)) v.tables)
      (fun f v => Concluded w.tables r w.now exit (.error f) v.tables) := by
  have found : w.tables.orderWithCode? r.code = some r := find_of_nodup sound.orderCodes member
  have ended {order : Order} {target : OrderStatus} {t : Tables}
      (read : w.tables.readOrder r = .ok order) (left : Left w.times w.tables order target t) :
      t = w.tables.ended r.id target w.now := (still.times ▸ left).ended sound.codes read
  refine (leavePending_ends exit r.code still.1.alone).mono ?_ ?_
  · rintro o v ⟨_, _, order, named, early, pending, left⟩
    cases found.symm.trans named.found
    rw [still.clock, isDue_overdue named.read, decide_eq_false_iff_not] at early
    rw [ended named.read left]
    have waiting : r.status = .pending := by
      obtain ⟨_, rfl⟩ := readOrder_values named.read
      exact pending
    exact .settled waiting (Nat.le_of_not_lt fun late => early ⟨waiting, late⟩)
  · rintro f v ⟨_, ⟨same, unleft | disturbed⟩ | ⟨kind, _, order, named, due, left⟩⟩
    · rw [same]
      rcases unleft with unknown | ⟨known, hidden⟩ | ⟨named, why⟩
      · rw [found] at unknown
        cases unknown
      · obtain ⟨order, read⟩ := readable.toLegible.order (List.mem_of_find?_eq_some known)
        rw [read] at hidden
        cases hidden
      · cases found.symm.trans named.found
        rw [still.clock] at why
        exact unsettled_concludes sound readable member fit room named.read why
    · exact absurd still.1 disturbed.1
    · cases found.symm.trans named.found
      rw [still.clock, isDue_overdue named.read] at due
      obtain ⟨pending, late⟩ := of_decide_eq_true due
      rw [ended named.read left]
      exact .lapsed pending late kind

/-- The expiry of an overdue order does what a payment does that comes too late. -/
theorem expireOrder_overdue (overdue : r.Overdue w.now) (room : ¬w.tables.Overflows r.id) :
    ∃ v, expireOrder s r.id w = .ok true v ∧
      v.tables = w.tables.ended r.id .expired w.now := by
  have paid := leavePending_concludes (s := s) still sound readable member fit .pay fun _ _ => room
  unfold Ends at paid
  cases run : leavePending s .pay r.code w with
  | ok o v =>
    rw [run] at paid
    obtain ⟨⟨_, ⟨⟩, _⟩, _⟩ := paid.overdue overdue
  | error f v =>
    rw [run] at paid
    obtain ⟨⟨_, ⟨⟩, kind⟩, ended⟩ := paid.overdue overdue
    have late : isOverdue w.clock r.expiresAt = true := by
      simpa [isOverdue, still.clock] using overdue.2
    obtain ⟨u, expired, same⟩ := (exit_trace still.1.alone sound.ids run).1 r
      ⟨find_of_nodup sound.orderCodes member, overdue.1, late, kind⟩
    exact ⟨u, expired, same.trans ended⟩

theorem expireOrder_concludes (increasing : w.tables.orders.Pairwise fun a b => a.id < b.id)
    (room : r.Overdue w.now → ¬w.tables.Overflows r.id) :
    ∃ v, expireOrder s r.id w = .ok (decide (r.Overdue w.now)) v ∧
      v.tables =
        if r.Overdue w.now then w.tables.ended r.id .expired w.now else w.tables := by
  by_cases overdue : r.Overdue w.now
  · rw [if_pos overdue, decide_eq_true overdue]
    exact expireOrder_overdue still sound readable member fit overdue (room overdue)
  · rw [if_neg overdue, decide_eq_false overdue]
    obtain ⟨o, read⟩ := readable.toLegible.order member
    have reads : w.tables.Reads [r] [o] :=
      ⟨increasing, List.singleton_sublist.mpr member, by simpa using fit, .cons read .nil⟩
    have early : o.isDue w.now = false := by
      rw [isDue_overdue read, decide_eq_false overdue]
    obtain ⟨v, run, alike⟩ := expireOrder_early s still reads early
    exact ⟨v, run, alike.tables⟩

theorem sweep_concludes {settings : Settings} {u : World}
    (increasing : w.tables.orders.Pairwise fun a b => a.id < b.id) (overdue : r.Overdue w.now)
    (room : ¬w.tables.Overflows r.id) (picked : sweepIds settings.expiry w = .ok [r.id] u) :
    ∃ v, sweep settings w = .ok ⟨1, 1, 0⟩ v ∧ v.tables = w.tables.ended r.id .expired w.now := by
  obtain ⟨⟨same, _⟩, lead⟩ := (sweepIds_meets _ still.1.alone).of_ok picked
  have calm := lead.still still
  have now := lead.now still
  rw [← same] at sound readable member increasing room ⊢
  rw [← now] at overdue ⊢
  obtain ⟨o, read⟩ := readable.toLegible.order member
  have reads : u.tables.Reads [r] [o] :=
    ⟨increasing, List.singleton_sublist.mpr member, by simpa using fit, .cons read .nil⟩
  obtain ⟨v, expired, ended⟩ := expireOrder_overdue (s := settings.attempts) calm sound readable
    member fit overdue room
  have counted : countExpiries settings.attempts { found := 1 } [r.id] u = .ok ⟨1, 1, 0⟩ v := by
    have tried : outcome (expireOrder settings.attempts r.id) u = .ok (.ok true) v := by
      rw [outcome, expired]
    rw [countExpiries_cons]
    exact bind_ok.mpr ⟨⟨1, 1, 0⟩, v, bind_of_run tried, rfl⟩
  have ends := (sweepPicked_alike settings reads calm.1.alike).trans
    (sweepOrders_outcomes settings.attempts _ calm reads calm.1.alike)
  rw [List.map_singleton, List.length_singleton, counted] at ends
  obtain ⟨v', swept, alike⟩ := ends.ok
  exact ⟨v', (bind_of_run picked).trans swept, alike.tables.symm.trans ended⟩

end Service

section

variable {w : World} {e : Event} (still : e.Still)

include still

theorem exit_unknown {exit : Service.Exit} {code : String} (asked : e.command = exit.command code)
    (unknown : w.tables.orderWithCode? code = none) :
    w.answer e = .error (.orderNotFound code) ∧ (w.after e).tables = w.tables := by
  have unnamed {r : OrderRow} {order : Order} (named : Named w.tables code r order) : False := by
    rw [named.found] at unknown
    cases unknown
  have ends : (e.command.perform e.settings).Ends (w.facing e) (fun _ _ => False)
      (fun f v => f = .orderNotFound code ∧ v.tables = w.tables) := by
    rw [asked, exit_perform]
    have alone : (w.facing e).Alone := still.quiet.alone
    refine Service.ends_map.mpr ((Service.leavePending_ends exit code alone).mono ?_ ?_)
    · rintro o v ⟨_, _, _, named, _⟩
      exact unnamed named
    · rintro f v ⟨_, ⟨same, unleft | disturbed⟩ | ⟨_, _, _, named, _⟩⟩
      · rcases unleft with _ | ⟨known, _⟩ | ⟨named, _⟩
        · exact ⟨rfl, same⟩
        · cases unknown.symm.trans known
        · exact (unnamed named).elim
      · exact absurd still.quiet disturbed.1
      · exact (unnamed named).elim
  rcases event_ends ends with ⟨_, _, ⟨⟩⟩ | ⟨_, told, rfl, same⟩
  exact ⟨told, same⟩

theorem expiry_unknown {id : Int} (asked : e.command = .expireOrder id)
    (unknown : ∀ r ∈ w.tables.orders, r.id ≠ id) :
    (w.answer e = .ok (.expired false) ∨ w.answer e = .error .beyond64) ∧
      (w.after e).tables = w.tables := by
  have calm : (w.facing e).Still := ⟨still.quiet, still.stands⟩
  have met := (Service.expireOrder_meets (s := e.settings.attempts) (w := w.facing e) id
    calm.1.alone).and (Service.expireOrder_restores e.settings.attempts id calm.1.alone)
  have unlisted (r : OrderRow) : r ∉ w.tables.ordersWithIds [id] := fun here => by
    obtain ⟨member, own⟩ := mem_ordersWithIds.mp here
    exact unknown r member (List.mem_singleton.mp own)
  have ends : (e.command.perform e.settings).Ends (w.facing e)
      (fun a v => a = .expired false ∧ v.tables = w.tables)
      (fun f v => f = .beyond64 ∧ v.tables = w.tables) := by
    rw [asked]
    refine Service.ends_map.mpr (met.mono ?_ ?_)
    · rintro won v ⟨⟨⟨_, ⟨here, _⟩⟩ | ⟨rfl, same, _⟩, _⟩, _⟩
      · exact absurd here (unlisted _)
      · exact ⟨rfl, same⟩
    · rintro f v ⟨⟨why | disturbed, _⟩, same⟩
      · cases why with
        | unfit unfit => exact ⟨unfit.1, same⟩
        | unreadable here _ => exact absurd here (unlisted _)
        | stalled here _ _ => exact absurd here (unlisted _)
      · exact absurd calm.1 disturbed.1
  rcases event_ends ends with ⟨_, told, rfl, same⟩ | ⟨_, told, rfl, same⟩
  · exact ⟨.inl told, same⟩
  · exact ⟨.inr told, same⟩

end

/-- All paths to the end of an order agree on what becomes of it. Whoever pays or cancels it is
answered by its state and, while it is pending, by its deadline; its expiry by id tells whether
it was pending and overdue; and if it was, then a payment, a cancellation, the expiry by id and a
sweep that picks it alone leave the same tables. The id has to fit the statements that carry it,
and where units come back there has to be room for them in stock. -/
theorem paths_to_expiry_agree {w : World} (reached : Reachable Command.Priced w) {e : Event}
    (still : e.Still) :
    (∀ (exit : Service.Exit) code, e.command = exit.command code → w.tables.orderWithCode? code = none →
      w.answer e = .error (.orderNotFound code) ∧ (w.after e).tables = w.tables) ∧
    (∀ id, e.command = .expireOrder id → (∀ r ∈ w.tables.orders, r.id ≠ id) →
      (w.answer e = .ok (.expired false) ∨ w.answer e = .error .beyond64) ∧
        (w.after e).tables = w.tables) ∧
    ∀ r ∈ w.tables.orders, fits64 r.id = true →
      (r.status = .pending → r.expiresAt < e.now ∨ e.command = .cancelOrder r.code →
        ¬w.tables.Overflows r.id) →
      (∀ exit : Service.Exit, e.command = exit.command r.code →
        Concluded w.tables r e.now exit (w.answer e) (w.after e).tables) ∧
      (e.command = .expireOrder r.id →
        w.answer e = .ok (.expired (decide (r.Overdue e.now))) ∧
        (w.after e).tables =
          if r.Overdue e.now then w.tables.ended r.id .expired e.now else w.tables) ∧
      (r.Overdue e.now → e.command = .sweep →
        (∃ v, Service.sweepIds e.settings.expiry (w.facing e) = .ok [r.id] v) →
        w.answer e = .ok (.swept ⟨1, 1, 0⟩) ∧
          (w.after e).tables = w.tables.ended r.id .expired e.now) := by
  have sound : Sound (w.facing e).tables := reached.sound
  have readable : Readable (w.facing e).tables := reached.readable
  have calm : (w.facing e).Still := ⟨still.quiet, still.stands⟩
  refine ⟨fun exit code => exit_unknown still, fun id => expiry_unknown still, ?_⟩
  intro r member fit room
  refine ⟨?_, ?_, ?_⟩
  · intro exit asked
    have ends : (e.command.perform e.settings).Ends (w.facing e)
        (fun a v => Concluded w.tables r e.now exit (.ok a) v.tables)
        (fun f v => Concluded w.tables r e.now exit (.error f) v.tables) := by
      rw [asked, exit_perform]
      refine Service.ends_map.mpr ?_
      refine Service.leavePending_concludes calm sound readable member fit exit ?_
      intro pending release
      refine room pending (release.imp_right ?_)
      rintro rfl
      exact asked
    rcases event_ends ends with ⟨_, told, concluded⟩ | ⟨_, told, concluded⟩
    · exact told ▸ concluded
    · exact told ▸ concluded
  · intro asked
    obtain ⟨v, run, tables⟩ := Service.expireOrder_concludes (s := e.settings.attempts) calm sound
      readable member fit reached.increasing fun overdue => room overdue.1 (.inl overdue.2)
    have performed : e.command.perform e.settings (w.facing e) =
        .ok (.expired (decide (r.Overdue e.now))) v := by
      rw [asked]
      exact Service.map_ok run
    obtain ⟨told, after⟩ := event_of_run performed
    exact ⟨told, after ▸ tables⟩
  · rintro overdue asked ⟨u, picked⟩
    obtain ⟨v, run, tables⟩ := Service.sweep_concludes calm sound readable member fit
      reached.increasing overdue (room overdue.1 (.inl overdue.2)) picked
    have performed : e.command.perform e.settings (w.facing e) = .ok (.swept ⟨1, 1, 0⟩) v := by
      rw [asked]
      exact Service.map_ok run
    obtain ⟨told, after⟩ := event_of_run performed
    exact ⟨told, after ▸ tables⟩

/-- The tea that nobody paid for within its half hour is back in stock an hour after the start,
whoever comes first. -/
theorem late_tea_ends_alike :
    let w := World.teaOrdered
    let pay := Event.quiet 60 (.payOrder "order-1")
    let cancel := Event.quiet 60 (.cancelOrder "order-1")
    let expire := Event.quiet 60 (.expireOrder 1)
    (w.after pay).tables = (w.after cancel).tables ∧
      (w.after cancel).tables = (w.after expire).tables ∧
      (w.after expire).tables = (w.after .hourlySweep).tables := by
  intro w pay cancel expire
  have price : Desk.checkPrice (.ofCents 150) = .accepted (.ofCents 150) := by rfl
  have reached : Reachable Command.Priced w :=
    (Reachable.start rfl).run (teaEvents_fit Command.Priced price trivial)
  have rows : ∃ r ∈ w.tables.orders, r.id = 1 ∧ r.code = "order-1" ∧
      r.Overdue (.minutes 60) := by
    decide +kernel
  obtain ⟨r, member, first, code, overdue⟩ := rows
  have fit : fits64 r.id = true := by
    rw [first]
    rfl
  have room : ¬w.tables.Overflows r.id := by
    rintro ⟨code, stock, known, large⟩
    obtain ⟨p, found, rfl⟩ := Option.map_eq_some_iff.mp known
    obtain ⟨here, rfl⟩ := product_mem found
    have stocks : ∀ p ∈ w.tables.products, p.stock + w.tables.ordered 1 p.code ≤ 2 ^ 63 - 1 := by
      decide +kernel
    have fits := stocks p here
    rw [first] at large
    omega
  have picked : ∃ v, Service.sweepIds Event.hourlySweep.settings.expiry
      (w.facing .hourlySweep) = .ok [r.id] v := by
    have ids : w.tables.idsTouchedWithin (.minutes 0) (.minutes 25) [.pending] 1000 = [1] := by
      simp only [Tables.idsTouchedWithin, List.mergeSort_eq_insertionSort]
      decide +kernel
    let hour := w.facing .hourlySweep
    let expiry := Event.hourlySweep.settings.expiry
    have below : hour.now.shift? (-expiry.threshold) = some (.minutes 0) := by decide
    have above : hour.now.shift? (-expiry.bottomThreshold) = some (.minutes 25) := by decide
    have run := Service.sweepIds_run (w := hour) ⟨quiet_nothing, rfl⟩ below above (by decide)
    rw [first]
    exact ⟨_, run.trans (congrArg (EStateM.Result.ok · _) ids)⟩
  have still (c : Command) : (Event.quiet 60 c).Still := ⟨quiet_nothing, rfl⟩
  have paid := ((paths_to_expiry_agree reached (still (.payOrder "order-1"))).2.2 r member fit
    fun _ _ => room).1 .pay (code ▸ rfl)
  have canceled := ((paths_to_expiry_agree reached (still (.cancelOrder "order-1"))).2.2 r member
    fit fun _ _ => room).1 .cancel (code ▸ rfl)
  have expired := ((paths_to_expiry_agree reached (still (.expireOrder 1))).2.2 r member fit
    fun _ _ => room).2.1 (first ▸ rfl)
  have swept := ((paths_to_expiry_agree reached (e := .hourlySweep) ⟨quiet_nothing, rfl⟩).2.2 r
    member fit fun _ _ => room).2.2 overdue rfl picked
  have paid := (paid.overdue overdue).2
  have canceled := (canceled.overdue overdue).2
  have expired := expired.2.trans (if_pos overdue)
  exact ⟨paid.trans canceled.symm, canceled.trans expired.symm, expired.trans swept.2.symm⟩

end Stockroom
