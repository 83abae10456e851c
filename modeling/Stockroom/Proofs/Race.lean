import Stockroom.Proofs.Runs

/-! Attempts that race for one order.
Each attempt acts on the order as somebody read it before, so what it knows may be out of date.
Only the guarded change of the row decides: one attempt at most gets the order out of the
pending state, and no other touches the tables. -/
namespace Stockroom

open Service (fits64 Exit)

/-- The ways to get an order out of the pending state. -/
inductive Way where
  /-- To pay or cancel it, unless it is overdue: then it is expired. -/
  | leave (exit : Exit)
  /-- To expire it if it is due, before something else is done with it. -/
  | check (remark : String)
  | expire
  /-- To expire it in any case. -/
  | gate

structure Attempt where
  way : Way
  settings : Settings.Attempts
  now : Moment
  disruptions : Disruptions := {}

namespace Attempt

def won (expired : Bool) : Option OrderStatus := if expired then some .expired else none

/-- The stored part of an attempt, on an order as it was read before; the state that the order
is moved to, if it is. -/
def perform (a : Attempt) (order : Order) : Service (Option OrderStatus) :=
  match a.way with
  | .leave exit =>
    (fun result => some (if result.1 then .expired else exit.target)) <$>
      Service.atomically (Service.exitFrom a.settings exit order)
  | .check remark => won <$> Service.atomically (Service.checkExpiry a.settings order remark)
  | .expire => won <$> Service.atomically (Service.expireDue a.settings order)
  | .gate => won <$> Service.atomically (Service.expireNow a.settings order)

def clock (a : Attempt) : Moment := a.disruptions.ticks.headD a.now

def target (a : Attempt) (order : Order) : OrderStatus :=
  match a.way with
  | .leave exit => if order.isDue a.clock then .expired else exit.target
  | _ => .expired

theorem target_ne (a : Attempt) (order : Order) : a.target order ≠ .pending := by
  unfold target
  split
  · rename_i exit _
    split
    · simp
    · cases exit <;> simp [Exit.target]
  · simp

/-- An attempt may end without a fault and without having moved the order. -/
def MayPass (a : Attempt) (order : Order) : Prop :=
  match a.way with
  | .leave _ => False
  | .check _ => order.isDue a.clock = false
  | .expire => True
  | .gate => True

def facing (a : Attempt) (w : World) : World := { w with now := a.now, disruptions := a.disruptions }

def result (a : Attempt) (order : Order) (w : World) : Except Fault (Option OrderStatus) :=
  match a.perform order (a.facing w) with
  | .ok moved _ => .ok moved
  | .error f _ => .error f

def after (a : Attempt) (order : Order) (w : World) : World :=
  match a.perform order (a.facing w) with
  | .ok _ v => v
  | .error _ v => v

end Attempt

structure Record where
  attempt : Attempt
  /-- The order as it was read before. -/
  order : Order
  before : Tables
  after : Tables
  result : Except Fault (Option OrderStatus)

def Attempt.record (a : Attempt) (order : Order) (w : World) : Record :=
  ⟨a, order, w.tables, (a.after order w).tables, a.result order w⟩

namespace Record

def target (r : Record) : OrderStatus := r.attempt.target r.order

def Won (r : Record) : Prop := r.result = .ok (some r.target)

/-- The attempt left the tables alone; it found the order gone or, where it may, did nothing. -/
def Lost (r : Record) : Prop :=
  r.after = r.before ∧
    ((∃ f, r.result = .error f ∧ (f.kind = .invalidOrderStatus ∨ f.kind = .orderExpired)) ∨
      (r.result = .ok none ∧ r.attempt.MayPass r.order))

def Stuck (r : Record) : Prop :=
  r.after = r.before ∧ ∃ f target m u, r.result = .error f ∧ target ≠ .paid ∧
    (true, u) = r.before.moveStatus r.order.id .pending target m ∧
    Service.Stuck r.attempt.settings u r.order.lines f

/-- The attempt left the tables alone, because one of its statements was refused. -/
def Refused (r : Record) : Prop :=
  r.after = r.before ∧ ¬r.attempt.disruptions.Quiet ∧ ∃ f, r.result = .error f ∧ f.FromOthers

def Beaten (r : Record) : Prop := r.Lost ∨ r.Stuck ∨ r.Refused

theorem Beaten.kept {r : Record} (beaten : r.Beaten) : r.after = r.before := by
  rcases beaten with lost | stuck | refused
  · exact lost.1
  · exact stuck.1
  · exact refused.1

end Record

/-- Attempts at the order with an id, one after another, each on a snapshot of the order that was
read at some time before: the state after them, the snapshots, and what became of the
attempts. -/
inductive Race (id : Int) (start : World) : World → List Order → List Record → Prop where
  | start : Race id start start [] []
  | look {w : World} {seen : List Order} {log : List Record} {r : OrderRow} {order : Order} :
      Race id start w seen log → r ∈ w.tables.orders → r.id = id →
      w.tables.readOrder r = .ok order → Race id start w (order :: seen) log
  | act {w : World} {seen : List Order} {log : List Record} {order : Order} (a : Attempt) :
      Race id start w seen log → order ∈ seen → a.disruptions.Alone →
      Race id start (a.after order w) seen (log ++ [a.record order w])

/- One attempt -/

section Attempts

variable {w : World} {s : Settings.Attempts} {order : Order} {target : OrderStatus} {f : Fault}

theorem stored_ends {α : Type} {x : Service α} {good : α → Tables → Prop} {bad : Fault → Prop}
    (meets : x.Meets w good bad) (alone : w.Alone) :
    (Service.atomically x).Ends w (fun a v => good a v.tables)
      (fun f v => v.tables = w.tables ∧ (bad f ∨ w.Disturbs f)) := by
  have met := Service.atomically_meets meets alone
  refine (met.and Service.atomically_restores).mono ?_ ?_
  · intro a v h
    exact h.1.1
  · rintro f v ⟨⟨why, _⟩, kept⟩
    exact ⟨kept, why⟩

def Attempt.Fails (s : Settings.Attempts) (t : Tables) (order : Order) (f : Fault) : Prop :=
  (f.kind = .invalidOrderStatus ∨ f.kind = .orderExpired) ∨
    ∃ target m u, target ≠ .paid ∧ (true, u) = t.moveStatus order.id .pending target m ∧
      Service.Stuck s u order.lines f

theorem stalled_fails {t : Tables} (fit : fits64 order.id = true)
    (why : Service.Stalled s t order target f) : Attempt.Fails s t order f := by
  rcases why with ⟨_, id, own, unfit⟩ | ⟨unpaid, m, u, moved, stuck⟩
  · rw [List.mem_singleton.mp own, fit] at unfit
    cases unfit
  · exact .inr ⟨target, m, u, unpaid, moved, stuck⟩

theorem unmoved_fails {t : Tables} (fit : fits64 order.id = true) {lost : Fault}
    (late : lost.kind = .invalidOrderStatus ∨ lost.kind = .orderExpired)
    (why : Service.Unmoved s t order target lost f) : Attempt.Fails s t order f := by
  rcases why with stalled | ⟨_, rfl⟩
  · exact stalled_fails fit stalled
  · exact .inl late

theorem lostExpiry_kind (t : Tables) (order : Order) (remark : String) :
    (Service.lostExpiry t order remark).kind = .invalidOrderStatus ∨
      (Service.lostExpiry t order remark).kind = .orderExpired := by
  unfold Service.lostExpiry
  split
  · exact .inr rfl
  · exact .inl rfl

theorem perform_ends (a : Attempt) (alone : w.Alone) (shown : w.clock = a.clock)
    (fit : fits64 order.id = true) :
    (a.perform order).Ends w
      (fun moved v =>
        (moved = some (a.target order) ∧ Left w.times w.tables order (a.target order) v.tables) ∨
        (moved = none ∧ a.MayPass order ∧ v.tables = w.tables))
      (fun f v => v.tables = w.tables ∧
        (Attempt.Fails a.settings w.tables order f ∨ w.Disturbs f)) := by
  obtain ⟨way, settings, now, disruptions⟩ := a
  cases way with
  | leave exit =>
    have ends := stored_ends (Service.exitFrom_meets (s := settings) exit order) alone
    refine Service.ends_map.mpr (ends.mono ?_ ?_)
    · intro result v exited
      rw [shown] at exited
      cases exited with
      | expired due left => exact .inl (by simpa [Attempt.target, due] using left)
      | settled early _ left => exact .inl (by simpa [Attempt.target, early] using left)
    · rintro f v ⟨kept, why⟩
      refine ⟨kept, why.imp_left fun why => ?_⟩
      rcases why with ⟨_, rfl⟩ | ⟨_, why⟩ | ⟨_, _, ⟨_, rfl⟩ | ⟨_, why⟩⟩
      · exact .inl (.inr rfl)
      · exact unmoved_fails fit (lostExpiry_kind _ _ _) why
      · exact .inl (.inl rfl)
      · exact unmoved_fails fit (.inl rfl) why
  | check remark =>
    have ends := stored_ends (Service.checkExpiry_meets (s := settings) order remark) alone
    refine Service.ends_map.mpr (ends.mono ?_ ?_)
    · rintro expired v (⟨rfl, due, left⟩ | ⟨rfl, early, _, kept⟩)
      · exact .inl ⟨rfl, left⟩
      · rw [shown] at early
        exact .inr ⟨rfl, early, kept⟩
    · rintro f v ⟨kept, why⟩
      refine ⟨kept, why.imp_left fun why => ?_⟩
      rcases why with ⟨_, rfl⟩ | ⟨_, why⟩
      · exact .inl (.inr rfl)
      · exact unmoved_fails fit (lostExpiry_kind _ _ _) why
  | expire =>
    have ends := stored_ends (Service.expireDue_meets (s := settings) order) alone
    refine Service.ends_map.mpr (ends.mono ?_ ?_)
    · rintro expired v (⟨rfl, _, left⟩ | ⟨rfl, kept, _⟩)
      · exact .inl ⟨rfl, left⟩
      · exact .inr ⟨rfl, trivial, kept⟩
    · rintro f v ⟨kept, why⟩
      exact ⟨kept, why.imp_left fun why => stalled_fails fit why.2⟩
  | gate =>
    have ends := stored_ends (Service.expireNow_meets (s := settings) order) alone
    refine Service.ends_map.mpr (ends.mono ?_ ?_)
    · rintro expired v (⟨rfl, left⟩ | ⟨rfl, kept, _⟩)
      · exact .inl ⟨rfl, left⟩
      · exact .inr ⟨rfl, trivial, kept⟩
    · rintro f v ⟨kept, why⟩
      exact ⟨kept, why.imp_left (stalled_fails fit)⟩

/-- An attempt wins and moves the order, or it leaves the tables alone. -/
theorem attempt_step (a : Attempt) (w : World) (alone : a.disruptions.Alone)
    (fit : fits64 order.id = true) :
    ((a.record order w).Won ∧ ∃ times,
      Left times w.tables order (a.target order) (a.after order w).tables) ∨
    (a.record order w).Beaten := by
  have ends := perform_ends (w := a.facing w) a alone rfl fit
  unfold Service.Ends at ends
  unfold Record.Won Record.Beaten Record.Lost Record.Stuck Record.Refused Attempt.record
    Attempt.result Attempt.after
  cases run : a.perform order (a.facing w) with
  | ok moved v =>
    rw [run] at ends
    rcases ends with ⟨rfl, left⟩ | ⟨rfl, passes, kept⟩
    · exact .inl ⟨rfl, _, left⟩
    · exact .inr (.inl ⟨kept, .inr ⟨rfl, passes⟩⟩)
  | error f v =>
    rw [run] at ends
    obtain ⟨kept, (late | ⟨target, m, u, unpaid, moved, stuck⟩) | ⟨noisy, others⟩⟩ := ends
    · exact .inr (.inl ⟨kept, .inl ⟨f, rfl, late⟩⟩)
    · exact .inr (.inr (.inl ⟨kept, f, target, m, u, rfl, unpaid, moved, stuck⟩))
    · exact .inr (.inr (.inr ⟨kept, noisy, f, rfl, others⟩))

end Attempts

/- The exit -/

/-- What an exit makes of the tables. The order is in its new state, its units are back in
stock unless it is paid, and nothing else is different. -/
structure Departed (t : Tables) (id : Int) (target : OrderStatus) (t' : Tables) : Prop where
  pending : Service.Pending t id
  status : (t'.orderWithId? id).map (·.status) = some target
  stock : ∀ code, t'.stock? code =
    (t.stock? code).map (· + if target = .paid then 0 else t.ordered id code)
  rest : ∃ m, SameFaces { t with orders := t.orders.map (·.movedTo id target m) } t'

theorem status_moved {t : Tables} (unique : t.UniqueIds) {id : Int}
    (pending : Service.Pending t id) (target : OrderStatus) (m : Moment) :
    ((t.orders.map (·.movedTo id target m)).find? (·.id = id)).map (·.status) = some target := by
  obtain ⟨r, member, rfl, waiting⟩ := pending
  have ids : ((t.orders.map (·.movedTo r.id target m)).map (·.id)).Nodup := by
    rw [moved_ids]
    exact unique
  have found := find_of_nodup ids (List.mem_map_of_mem (f := (·.movedTo r.id target m)) member)
  simp only [movedTo_id] at found
  rw [found, Option.map_some, movedTo_pending rfl waiting]

theorem Left.departed {times : List Moment} {t t' : Tables} {order : Order} {target : OrderStatus}
    {id : Int} (left : Left times t order target t') (codes : t.UniqueCodes) (ids : t.UniqueIds)
    (named : order.id = id) (same : ∀ code, units code order.lines = t.ordered id code) :
    Departed t id target t' := by
  subst named
  have pending : Service.Pending t order.id := by
    cases left with
    | mk _ moved _ => exact Service.moveStatus_won moved
  obtain ⟨m, u, rfl, rest⟩ := left.moved
  have status := status_moved ids pending target m
  rcases rest with ⟨rfl, rfl⟩ | ⟨unpaid, released⟩
  · constructor
    · exact pending
    · exact status
    · intro code
      simp only [if_true]
      exact (map_add_zero _).symm
    · exact ⟨m, .refl _⟩
  · have moved := released.moved
    constructor
    · exact pending
    · rw [Tables.orderWithId?, moved.faces.orders]
      exact status
    · intro code
      rw [if_neg unpaid, ← same]
      exact moved.stock codes code
    · exact ⟨m, moved.faces⟩

theorem Departed.ended {t t' : Tables} {id : Int} {target : OrderStatus}
    (departed : Departed t id target t') (ids : t.UniqueIds) (out : target ≠ .pending) :
    ¬Service.Pending t' id := by
  obtain ⟨r, member, named, waiting⟩ := departed.pending
  obtain ⟨m, same⟩ := departed.rest
  rintro ⟨after, there, own, still⟩
  rw [same.orders] at there
  obtain ⟨before, known, rfl⟩ := List.mem_map.mp there
  rw [movedTo_id] at own
  have one : before = r := eq_of_nodup ids known member (own.trans named.symm)
  rw [one, movedTo_pending named waiting] at still
  exact out still

/- Races -/

/-- Where a race stands: no attempt has won so far and the tables are as at the start, or one
has won and they are as it left them. -/
structure Standing (id : Int) (start w : Tables) (seen : List Order) (log : List Record) :
    Prop where
  lines : w.lines = start.lines
  snapshots : ∀ order ∈ seen, order.id = id ∧
    ∀ code, units code order.lines = start.ordered id code
  outcome : ((∀ r ∈ log, r.Beaten) ∧ w = start) ∨
    ∃ earlier winner later, log = earlier ++ winner :: later ∧ winner.Won ∧
      (∀ r ∈ earlier ++ later, r.Beaten) ∧ winner.target ≠ .pending ∧
      Departed start id winner.target w

theorem Departed.lines {t t' : Tables} {id : Int} {target : OrderStatus}
    (departed : Departed t id target t') : t'.lines = t.lines := by
  obtain ⟨_, same⟩ := departed.rest
  exact same.lines

theorem Standing.look {id : Int} {start w : Tables} {seen : List Order} {log : List Record}
    (standing : Standing id start w seen log) {r : OrderRow} {order : Order} (own : r.id = id)
    (read : w.readOrder r = .ok order) : Standing id start w (order :: seen) log := by
  constructor
  · exact standing.lines
  · refine List.forall_mem_cons.mpr ⟨?_, standing.snapshots⟩
    constructor
    · obtain ⟨_, rfl⟩ := readOrder_values read
      exact own
    · intro code
      rw [units_read read, own, Tables.ordered, Tables.linesOf, standing.lines]
      rfl
  · exact standing.outcome

theorem Standing.act {id : Int} {start : Tables} {w : World} {seen : List Order}
    {log : List Record} (standing : Standing id start w.tables seen log) (codes : start.UniqueCodes)
    (ids : start.UniqueIds) (fit : fits64 id = true) {order : Order} (known : order ∈ seen)
    (a : Attempt) (alone : a.disruptions.Alone) :
    Standing id start (a.after order w).tables seen (log ++ [a.record order w]) := by
  obtain ⟨named, same⟩ := standing.snapshots order known
  rcases attempt_step a w alone (named ▸ fit) with ⟨won, times, left⟩ | beaten
  · rcases standing.outcome with ⟨others, untouched⟩ | ⟨_, winner, _, _, _, _, out, departed⟩
    · have departed : Departed start id (a.target order) (a.after order w).tables := by
        rw [← untouched] at codes ids same ⊢
        exact left.departed codes ids named same
      constructor
      · exact departed.lines
      · exact standing.snapshots
      · refine .inr ⟨log, _, [], rfl, won, ?_, a.target_ne order, departed⟩
        simpa using others
    · -- The order has left the pending state before, so nobody can win any more.
      have ended := departed.ended ids out
      cases left with
      | mk _ moved _ => exact absurd (named ▸ Service.moveStatus_won moved) ended
  · have kept : (a.after order w).tables = w.tables := beaten.kept
    rw [kept]
    constructor
    · exact standing.lines
    · exact standing.snapshots
    · rcases standing.outcome with ⟨others, untouched⟩ |
        ⟨earlier, winner, later, rfl, won, others, rest⟩
      · left
        refine ⟨List.forall_mem_append.mpr ⟨others, ?_⟩, untouched⟩
        simpa using beaten
      · right
        refine ⟨earlier, winner, later ++ [a.record order w], by simp, won, ?_, rest⟩
        rw [← List.append_assoc]
        refine List.forall_mem_append.mpr ⟨others, ?_⟩
        simpa using beaten

theorem Race.standing {id : Int} {start w : World} {seen : List Order} {log : List Record}
    (race : Race id start w seen log) (codes : start.tables.UniqueCodes)
    (ids : start.tables.UniqueIds) (fit : fits64 id = true) :
    Standing id start.tables w.tables seen log := by
  induction race with
  | start =>
    constructor
    · rfl
    · simp
    · exact .inl ⟨by simp, rfl⟩
  | look _ _ own read ih => exact ih.look own read
  | act a _ known alone ih => exact ih.act codes ids fit known a alone

/-- However many attempts race for an order, and however old the snapshots they act on, at most
one of them moves it, and only that one touches the tables. -/
theorem pending_left_at_most_once {id : Int} {start w : World} {seen : List Order}
    {log : List Record} (race : Race id start w seen log) (codes : start.tables.UniqueCodes)
    (ids : start.tables.UniqueIds) (fit : fits64 id = true) :
    ((∀ r ∈ log, r.Beaten) ∧ w.tables = start.tables) ∨
    ∃ earlier winner later, log = earlier ++ winner :: later ∧ winner.Won ∧
      (∀ r ∈ earlier ++ later, r.Beaten) ∧
      Departed start.tables id winner.target w.tables := by
  rcases (race.standing codes ids fit).outcome with none | ⟨earlier, winner, later, rest⟩
  · exact .inl none
  · obtain ⟨split, won, others, _, departed⟩ := rest
    exact .inr ⟨earlier, winner, later, split, won, others, departed⟩

def teaRead : Order where
  id := 1
  code := "order-1"
  status := .pending
  totalAmount := .ofCents 300
  expiresAt := .minutes 31
  createdAt := .minutes 1
  updatedAt := none
  lines := [⟨"tea", 2, .ofCents 150, .ofCents 300⟩]

/-- Past the deadline of the tea an expiry and a payment race: one of them wins, and the tea is
back in stock once. -/
theorem late_tea_left_once :
    ∃ w log, Race 1 World.teaOrdered w [teaRead] log ∧ log.length = 2 ∧
      ∃ earlier winner later, log = earlier ++ winner :: later ∧ winner.Won ∧
        (∀ r ∈ earlier ++ later, r.Beaten) ∧
        Departed World.teaOrdered.tables 1 winner.target w.tables := by
  let expiry : Attempt := { way := .expire, settings := {}, now := .minutes 40 }
  let payment : Attempt := { way := .leave .pay, settings := {}, now := .minutes 41 }
  have stored : ∃ r ∈ World.teaOrdered.tables.orders, r.id = 1 ∧
      World.teaOrdered.tables.readOrder r = .ok teaRead := by
    decide +kernel
  obtain ⟨r, member, own, read⟩ := stored
  have looked := Race.look .start member own read
  have known : teaRead ∈ [teaRead] := List.mem_singleton_self _
  have expiring := Race.act expiry looked known quiet_nothing.alone
  have race := Race.act payment expiring known quiet_nothing.alone
  have sound := teaOrdered_reached.sound
  refine ⟨_, _, race, rfl, ?_⟩
  rcases pending_left_at_most_once race sound.codes sound.ids (by decide) with none | one
  · have status : (payment.after teaRead (expiry.after teaRead World.teaOrdered)).tables ≠
        World.teaOrdered.tables := by
      decide +kernel
    exact absurd none.2 status
  · exact one

end Stockroom
