import Stockroom.Proofs.Batching
import Stockroom.Proofs.StoredTime

/-! The limit of a sweep and the orders it hides.
A sweep picks a limited number of pending orders before it looks at their deadlines. As long as
the clock does not go back and orders live equally long, ids, creation times and deadlines grow
together. So the overdue orders of the window come first in it, and the limit only leaves out
those that come last. -/
namespace Stockroom

open OrderRow (Follows)

/- Times -/

theorem Moment.shift?_mono {a b a' b' : Moment} {span : Int} (h : a ≤ b)
    (first : a.shift? span = some a') (second : b.shift? span = some b') : a' ≤ b' := by
  have micros {m m' : Moment} (shifted : m.shift? span = some m') :
      (m'.micros : Int) = m.micros + span := by
    unfold Moment.shift? Moment.ofMicros? at shifted
    split at shifted
    · split at shifted
      · cases shifted
        exact Int.toNat_of_nonneg ‹_›
      · cases shifted
    · cases shifted
  have before := micros first
  have after := micros second
  change a.micros ≤ b.micros at h
  change a'.micros ≤ b'.micros
  omega

/-- Orders that were created one after another and live for `ttl`. -/
structure Dated (ttl : Span) (times : List Moment) (rows : List OrderRow) : Prop where
  ordered : rows.Pairwise fun a b => a.createdAt ≤ b.createdAt
  created : ∀ r ∈ rows, r.createdAt ∈ times
  expires : ∀ r ∈ rows, r.createdAt.shift? ttl = some r.expiresAt

theorem OrderRow.Follows.dates {times : List Moment} {r r' : OrderRow} (h : Follows times r r') :
    r'.createdAt = r.createdAt ∧ r'.expiresAt = r.expiresAt := by
  cases h <;> exact ⟨rfl, rfl⟩

theorem Dated.advance {ttl : Span} {times times' : List Moment} {rows rows' : List OrderRow}
    (dated : Dated ttl times rows) (advances : Advances ttl times' rows rows')
    (later : ∀ m ∈ times, ∀ m' ∈ times', m ≤ m') : Dated ttl (times ++ times') rows' := by
  cases advances with
  | follow followed =>
    have births := follows_map (f := (·.createdAt)) followed fun _ _ one => one.dates.1
    constructor
    · have ordered := List.pairwise_map.mpr dated.ordered
      rw [← births] at ordered
      exact List.pairwise_map.mp ordered
    · intro r here
      obtain ⟨o, known, one⟩ := forall₂_mem followed r here
      rw [one.dates.1]
      exact List.mem_append_left _ (dated.created o known)
    · intro r here
      obtain ⟨o, known, one⟩ := forall₂_mem followed r here
      rw [one.dates.1, one.dates.2]
      exact dated.expires o known
  | @«open» new opened _ =>
    constructor
    · refine List.pairwise_append.mpr ⟨dated.ordered, List.pairwise_singleton _ _, ?_⟩
      intro o known r here
      rw [List.mem_singleton.mp here]
      exact later _ (dated.created o known) _ opened.created
    · refine List.forall_mem_append.mpr ⟨fun r known => ?_, fun r here => ?_⟩
      · exact List.mem_append_left _ (dated.created r known)
      · rw [List.mem_singleton.mp here]
        exact List.mem_append_right _ opened.created
    · refine List.forall_mem_append.mpr ⟨dated.expires, fun r here => ?_⟩
      rw [List.mem_singleton.mp here]
      exact opened.expires

theorem Dated.deadlines {ttl : Span} {times : List Moment} {rows : List OrderRow}
    (dated : Dated ttl times rows) : rows.Pairwise fun a b => a.expiresAt ≤ b.expiresAt := by
  refine dated.ordered.imp_of_mem fun {a b} first second before => ?_
  exact Moment.shift?_mono before (dated.expires a first) (dated.expires b second)

theorem run_rows_dated {w : World} (empty : w.tables = {}) {ttl : Span} {es : List Event}
    (alone : ∀ e ∈ es, e.disruptions.Alone)
    (lasting : ∀ e ∈ es, e.settings.expiry.orderTtl = ttl)
    (onward : (es.flatMap Event.times).Pairwise (· ≤ ·)) :
    Dated ttl (es.flatMap Event.times) (w.run es).tables.orders := by
  induction es using List.reverseRecOn with
  | nil => simpa [World.run, empty] using (⟨.nil, by simp, by simp⟩ : Dated ttl [] [])
  | append_singleton es e ih =>
    obtain ⟨earlier, last⟩ := List.forall_mem_append.mp alone
    obtain ⟨lasted, lasts⟩ := List.forall_mem_append.mp lasting
    rw [List.flatMap_append, List.flatMap_singleton] at onward ⊢
    obtain ⟨before, _, later⟩ := List.pairwise_append.mp onward
    have advances := event_advances (w.run es) e (last e (List.mem_singleton_self e))
    rw [lasts e (List.mem_singleton_self e)] at advances
    rw [run_append]
    exact (ih earlier lasted before).advance advances later

/- The window -/

/-- The pending orders that were created within a window. -/
def Tables.pendingWithin (t : Tables) (lower upper : Moment) : List OrderRow :=
  t.orders.filter fun r => r.status = .pending ∧ lower ≤ r.createdAt ∧ r.createdAt ≤ upper

/-- Those of them whose deadline is past. -/
def Tables.overdueWithin (t : Tables) (lower upper now : Moment) : List OrderRow :=
  (t.pendingWithin lower upper).filter fun r => r.expiresAt < now

theorem touchedWithin_pending {t : Tables}
    (untouched : ∀ r ∈ t.orders, r.status = .pending → r.updatedAt = none) (lower upper : Moment)
    (limit : Nat) :
    t.touchedWithin lower upper [.pending] limit = (t.pendingWithin lower upper).take limit := by
  have hits : (t.orders.filter fun r => decide (lower.toStored ≤ r.touchedAt.toStored) &&
      decide (r.touchedAt.toStored ≤ upper.toStored) && [OrderStatus.pending].contains r.status) =
        t.pendingWithin lower upper := by
    refine List.filter_congr fun r here => ?_
    by_cases pending : r.status = .pending
    · have created : r.touchedAt = r.createdAt := by
        rw [OrderRow.touchedAt, untouched r here pending, Option.getD_none]
      simp [created, Moment.toStored_le, pending]
    · simp [pending]
  unfold Tables.touchedWithin
  dsimp only
  rw [hits, if_neg (by omega), Int.toNat_natCast]

/-- If all items before a hit are hits, a limit may as well be set before the others are left
out. -/
theorem filter_take {α : Type} {p : α → Bool} {xs : List α}
    (closed : xs.Pairwise fun a b => p b = true → p a = true) (n : Nat) :
    (xs.take n).filter p = (xs.filter p).take n := by
  induction xs generalizing n with
  | nil => simp
  | cons x xs ih =>
    obtain ⟨first, rest⟩ := List.pairwise_cons.mp closed
    cases n with
    | zero => simp
    | succ n =>
      by_cases hit : p x = true
      · rw [List.take_succ_cons, List.filter_cons_of_pos hit, List.filter_cons_of_pos hit,
          List.take_succ_cons, ih rest]
      · have no_hits : xs.filter p = [] :=
          List.filter_eq_nil_iff.mpr fun y here hits => hit (first y here hits)
        rw [List.take_succ_cons, List.filter_cons_of_neg hit, List.filter_cons_of_neg hit, ih rest,
          no_hits, List.take_nil, List.take_nil]

theorem overdue_first {t : Tables} {ttl : Span} {times : List Moment}
    (dated : Dated ttl times t.orders) (lower upper now : Moment) (limit : Nat) :
    ((t.pendingWithin lower upper).take limit).filter (fun r => r.expiresAt < now) =
      (t.overdueWithin lower upper now).take limit := by
  refine filter_take ?_ limit
  refine (dated.deadlines.sublist List.filter_sublist).imp fun {a b} before late => ?_
  simp only [decide_eq_true_eq] at late ⊢
  exact Nat.lt_of_le_of_lt before late

/- Expiries that succeed -/

def OrderRow.expiredAmong (r : OrderRow) (ids : List Int) (m : Moment) : OrderRow :=
  if r.id ∈ ids ∧ r.status = .pending then
    { r with status := .expired, version := r.version + 1, updatedAt := some m }
  else r

/-- The tables after the expiry of some orders: these are expired, their units are back in
stock, and nothing else is different. -/
structure Swept (now : Moment) (t : Tables) (ids : List Int) (t' : Tables) : Prop where
  rest : SameFaces { t with orders := t.orders.map (·.expiredAmong ids now) } t'
  stock : ∀ code, t'.stock? code =
    (t.stock? code).map (· + (ids.map fun id => t.ordered id code).sum)

theorem expiredAmong_nil (r : OrderRow) (m : Moment) : r.expiredAmong [] m = r := by
  simp [OrderRow.expiredAmong]

theorem expiredAmong_append (r : OrderRow) (ids ids' : List Int) (m : Moment) :
    (r.expiredAmong ids m).expiredAmong ids' m = r.expiredAmong (ids ++ ids') m := by
  unfold OrderRow.expiredAmong
  by_cases pending : r.status = .pending
  · by_cases first : r.id ∈ ids
    · simp [pending, first]
    · simp [pending, first]
  · simp [pending]

namespace Swept

variable {now : Moment} {t u v : Tables} {ids ids' : List Int}

theorem refl (now : Moment) (t : Tables) : Swept now t [] t := by
  constructor
  · simpa [expiredAmong_nil] using SameFaces.refl t
  · exact fun code => (map_add_zero (t.stock? code)).symm

theorem trans (first : Swept now t ids u) (second : Swept now u ids' v) :
    Swept now t (ids ++ ids') v := by
  constructor
  · have orders : u.orders.map (·.expiredAmong ids' now) =
        t.orders.map (·.expiredAmong (ids ++ ids') now) := by
      rw [first.rest.orders, List.map_map]
      exact List.map_congr_left fun r _ => expiredAmong_append r ids ids' now
    refine ⟨second.rest.products.trans first.rest.products, ?_,
      second.rest.lines.trans first.rest.lines⟩
    exact second.rest.orders.trans orders
  · intro code
    have lines (id : Int) : u.ordered id code = t.ordered id code := by
      rw [Tables.ordered, Tables.linesOf, first.rest.lines]
      rfl
    simp only [second.stock, first.stock, lines, map_add_add, List.map_append, List.sum_append]

theorem touched (h : Swept now t ids u) : t.Touched ids u := by
  refine ⟨h.rest.lines, (·.expiredAmong ids now), h.rest.orders, fun r => ?_⟩
  unfold OrderRow.expiredAmong
  dsimp only
  constructor
  · split <;> rfl
  · exact fun other => if_neg fun h => other h.1

theorem codes (h : Swept now t ids u) (unique : t.UniqueCodes) : u.UniqueCodes :=
  h.rest.uniqueCodes unique

end Swept

theorem Left.swept {now : Moment} {t t' : Tables} {r : OrderRow} {order : Order}
    (left : Left [now] t order .expired t') (codes : t.UniqueCodes)
    (read : t.readOrder r = .ok order) : Swept now t [r.id] t' := by
  obtain @⟨u, _, m, member, moved, rest⟩ := left
  obtain rfl := List.mem_singleton.mp member
  obtain ⟨_, rfl⟩ := moveStatus_ok moved
  obtain ⟨_, released⟩ := rest.resolve_left (by simp)
  have named : order.id = r.id := by
    obtain ⟨_, rfl⟩ := readOrder_values read
    rfl
  have rows (o : OrderRow) : o.movedTo order.id .expired m = o.expiredAmong [r.id] m := by
    simp [OrderRow.movedTo, OrderRow.expiredAmong, named]
  have given := released.moved
  simp only [rows] at given
  refine ⟨given.faces, fun code => ?_⟩
  rw [given.stock codes, units_read read, List.map_singleton, List.sum_singleton]
  rfl

namespace Service

variable {w v : World}

theorem expireOrder_tried {r : OrderRow} {o : Order} (s : Settings.Attempts) (still : w.Still)
    (codes : w.tables.UniqueCodes) (reads : w.tables.Reads [r] [o]) (due : o.isDue w.now = true) :
    ∃ result u, outcome (expireOrder s r.id) w = .ok result u ∧ w.Leads u ∧
      ((result = .ok true ∧ Swept w.now w.tables [r.id] u.tables) ∨
        ((∃ f, result = .error f) ∧ u.tables = w.tables)) := by
  obtain ⟨read, _⟩ := List.forall₂_cons.mp reads.read
  have listed : w.tables.ordersWithIds [r.id] = [r] :=
    ordersWithIds_of_sublist reads.increasing reads.known
  have ends := (expireOrder_meets (s := s) r.id still.1.alone).and
    (expireOrder_restores s r.id still.1.alone)
  unfold Ends at ends
  unfold outcome
  cases run : expireOrder s r.id w with
  | error f u =>
    rw [run] at ends
    exact ⟨_, u, rfl, ends.1.2, .inr ⟨⟨f, rfl⟩, ends.2⟩⟩
  | ok won u =>
    rw [run] at ends
    obtain ⟨⟨⟨rfl, expired⟩ | ⟨_, _, m, shown, unripe⟩, lead⟩, _⟩ := ends
    · refine ⟨_, u, rfl, lead, .inl ⟨rfl, ?_⟩⟩
      obtain @⟨r', _, _, _, member, read', _, left⟩ := expired
      rw [listed, List.mem_singleton] at member
      subst member
      rw [still.times] at left
      exact left.swept codes read'
    · -- The order was found as it was read, so it was pending and due.
      rw [still.times, List.mem_singleton] at shown
      subst shown
      have pending : Pending w.tables o.id := by
        refine ⟨r, reads.known.subset (List.mem_singleton_self r), ?_⟩
        have waiting := pending_of_isDue due
        obtain ⟨_, rfl⟩ := readOrder_values read
        exact ⟨rfl, waiting⟩
      rcases unripe r o (by rw [listed]; rfl) read with early | gone
      · rw [due] at early
        cases early
      · exact absurd pending gone

def succeeded : List Int → List (Except Fault Bool) → List Int
  | id :: ids, .ok true :: results => id :: succeeded ids results
  | _ :: ids, _ :: results => succeeded ids results
  | _, _ => []

theorem outcomes_tried {rows : List OrderRow} {os : List Order} (s : Settings.Attempts)
    (still : w.Still) (codes : w.tables.UniqueCodes) (reads : w.tables.Reads rows os)
    (due : ∀ o ∈ os, o.isDue w.now = true) :
    ∃ results u, outcomes ((rows.map (·.id)).map (expireOrder s)) w = .ok results u ∧
      (∀ result ∈ results, result = .ok true ∨ ∃ f, result = .error f) ∧
      Swept w.now w.tables (succeeded (rows.map (·.id)) results) u.tables := by
  induction rows generalizing os w with
  | nil => exact ⟨[], w, rfl, by simp, .refl _ _⟩
  | cons r rows ih =>
    obtain ⟨o, os₂, rfl, reads₁, reads₂, other⟩ := reads.cons
    obtain ⟨first, later⟩ := List.forall_mem_cons.mp due
    obtain ⟨result, u, one, lead, what⟩ := expireOrder_tried s still codes reads₁ first
    obtain ⟨ids, ended, settled⟩ : ∃ ids, Swept w.now w.tables ids u.tables ∧
        ((result = .ok true ∧ ids = [r.id]) ∨ ((∃ f, result = .error f) ∧ ids = [])) := by
      rcases what with ⟨won, swept⟩ | ⟨lost, kept⟩
      · exact ⟨_, swept, .inl ⟨won, rfl⟩⟩
      · exact ⟨[], kept ▸ .refl _ _, .inr ⟨lost, rfl⟩⟩
    have onward : u.tables.Reads rows os₂ := by
      have among : ids ⊆ [r.id] := by
        rcases settled with ⟨_, rfl⟩ | ⟨_, rfl⟩ <;> simp
      exact reads₂.touched (ended.touched.mono among) other
    have same := lead.now still
    obtain ⟨results, v, rest, each, swept⟩ := ih (lead.still still) (ended.codes codes) onward
      (fun o here => same ▸ later o here)
    refine ⟨result :: results, v, bind_ok.mpr ⟨_, _, one, bind_ok.mpr ⟨_, _, rest, rfl⟩⟩, ?_, ?_⟩
    · refine List.forall_mem_cons.mpr ⟨?_, each⟩
      exact settled.imp (·.1) (·.1)
    · rw [same] at swept
      rcases settled with ⟨rfl, rfl⟩ | ⟨⟨f, rfl⟩, rfl⟩
      · exact ended.trans swept
      · exact ended.trans swept

theorem succeeded_sublist (ids : List Int) (results : List (Except Fault Bool)) :
    (succeeded ids results).Sublist ids := by
  fun_induction succeeded ids results with
  | case1 id ids results ih => exact ih.cons_cons id
  | case2 id ids result results _ ih => exact ih.cons id
  | case3 => exact List.nil_sublist _

theorem tally_counts {ids : List Int} {results : List (Except Fault Bool)}
    (same : results.length = ids.length)
    (each : ∀ result ∈ results, result = .ok true ∨ ∃ f, result = .error f) (count : SweepCount) :
    (results.foldl tally count).found = count.found ∧
      (results.foldl tally count).expired = count.expired + (succeeded ids results).length ∧
      (results.foldl tally count).expired + (results.foldl tally count).failed =
        count.expired + count.failed + ids.length := by
  induction results generalizing ids count with
  | nil =>
    obtain rfl : ids = [] := List.length_eq_zero_iff.mp same.symm
    simp [succeeded]
  | cons result results ih =>
    obtain ⟨id, ids, rfl⟩ : ∃ id rest, ids = id :: rest := by
      cases ids with
      | nil => cases same
      | cons id ids => exact ⟨id, ids, rfl⟩
    obtain ⟨settled, later⟩ := List.forall_mem_cons.mp each
    obtain ⟨found, expired, total⟩ := ih (Nat.succ.inj same) later (tally count result)
    rw [List.foldl_cons, total, found, expired]
    rcases settled with rfl | ⟨f, rfl⟩
    · simp only [tally, succeeded, List.length_cons]
      exact ⟨trivial, by omega, by omega⟩
    · simp only [tally, succeeded, List.length_cons]
      exact ⟨trivial, trivial, by omega⟩

theorem sweepIds_window {s : Settings.Expiry} {lower upper : Moment} (still : w.Still)
    (below : w.now.shift? (-s.threshold) = some lower)
    (above : w.now.shift? (-s.bottomThreshold) = some upper) :
    sweepIds s w = idsTouchedWithin lower upper [.pending] s.maxSize.1 w := by
  have begins : later w.now (-s.threshold) w = .ok lower w := by
    rw [later, below]
    rfl
  have ends : later w.now (-s.bottomThreshold) w = .ok upper w := by
    rw [later, above]
    rfl
  rw [sweepIds, bind_of_run (now_idle still.2), bind_of_run begins, bind_of_run ends]

theorem sweepIds_run {s : Settings.Expiry} {lower upper : Moment} (still : w.Still)
    (below : w.now.shift? (-s.threshold) = some lower)
    (above : w.now.shift? (-s.bottomThreshold) = some upper) (fits : fits64 s.maxSize.1 = true) :
    sweepIds s w = .ok (w.tables.idsTouchedWithin lower upper [.pending] s.maxSize.1) w.turned := by
  rw [sweepIds_window still below above]
  exact query_ok.mpr ⟨turn_quiet still.1, by simpa using fits, rfl⟩

/-- A sweep whose limit does not fit ends before it has looked at any order. -/
theorem sweep_unfit {s : Settings} {lower upper : Moment} (still : w.Still)
    (below : w.now.shift? (-s.expiry.threshold) = some lower)
    (above : w.now.shift? (-s.expiry.bottomThreshold) = some upper)
    (unfit : fits64 s.expiry.maxSize.1 = false) : sweep s w = .error .beyond64 w.turned := by
  have picked : sweepIds s.expiry w = .error .beyond64 w.turned := by
    rw [sweepIds_window still below above]
    exact query_unfit (turn_quiet still.1) (by simp [unfit]) _
  rw [sweep_eq]
  exact bind_error.mpr (.inl picked)

theorem due_ids {t : Tables} {rows : List OrderRow} {os : List Order} (reads : t.Reads rows os)
    (now : Moment) :
    (os.filter (·.isDue now)).map (·.id) =
      (rows.filter fun r => isDue r.status now r.expiresAt).map (·.id) := by
  have read := reads.read
  clear reads
  induction read with
  | nil => rfl
  | @cons r o rows os one _ ih =>
    obtain ⟨_, rfl⟩ := readOrder_values one
    simp only [List.filter_cons, Order.isDue]
    split
    · exact congrArg (r.id :: ·) ih
    · exact ih

section

variable {s : Settings} {ttl : Span} {times : List Moment} {lower upper : Moment}

theorem sweep_overdue (still : w.Still) (ready : w.tables.Ready)
    (dated : Dated ttl times w.tables.orders)
    (untouched : ∀ r ∈ w.tables.orders, r.status = .pending → r.updatedAt = none)
    (below : w.now.shift? (-s.expiry.threshold) = some lower)
    (above : w.now.shift? (-s.expiry.bottomThreshold) = some upper)
    (fits : fits64 s.expiry.maxSize.1 = true) :
    EndsAlike (World.Alike Eq) (sweep s w) (countExpiries s.attempts
      { found := ((w.tables.pendingWithin lower upper).take s.expiry.maxSize.1).length }
      (((w.tables.overdueWithin lower upper w.now).take s.expiry.maxSize.1).map (·.id)) w) := by
  have window := touchedWithin_pending untouched lower upper s.expiry.maxSize.1
  have known := touchedWithin_sublist w.tables lower upper [.pending] s.expiry.maxSize.1
  rw [window] at known
  obtain ⟨os, reads⟩ := ready.reads known
  have picked := sweepIds_run still below above fits
  rw [idsTouchedWithin_eq ready.increasing, window] at picked
  have swept : sweep s w = sweepPicked s
      (((w.tables.pendingWithin lower upper).take s.expiry.maxSize.1).map (·.id)) w.turned := by
    rw [sweep_eq, bind_of_run picked]
  rw [swept]
  have turned := turned_alike still.1
  refine (sweepPicked_alike s (turned.tables.symm ▸ reads) turned.symm).trans ?_
  have due := sweepOrders_due s.attempts os
    { found := (((w.tables.pendingWithin lower upper).take s.expiry.maxSize.1).map (·.id)).length }
    still still.1.alike
  -- Of the orders that are picked the overdue ones come first.
  have late : ((w.tables.pendingWithin lower upper).take s.expiry.maxSize.1).filter
      (fun r => isDue r.status w.now r.expiresAt) =
        (w.tables.overdueWithin lower upper w.now).take s.expiry.maxSize.1 := by
    rw [← overdue_first dated]
    refine List.filter_congr fun r here => ?_
    have pending : r.status = .pending := by
      have hit := (List.mem_filter.mp (List.mem_of_mem_take here)).2
      exact (of_decide_eq_true hit).1
    simp [isDue, isOverdue, pending, OrderStatus.isTerminal]
  rw [due_ids reads, late, List.length_map] at due
  rw [List.length_map]
  exact due

theorem overdue_outcomes (still : w.Still) (ready : w.tables.Ready) (codes : w.tables.UniqueCodes)
    (lower upper : Moment) (limit : Nat) :
    ∃ results v, outcomes ((((w.tables.overdueWithin lower upper w.now).take limit).map (·.id)).map
        (expireOrder s.attempts)) w = .ok results v ∧
      (∀ result ∈ results, result = .ok true ∨ ∃ f, result = .error f) ∧
      Swept w.now w.tables (succeeded
        (((w.tables.overdueWithin lower upper w.now).take limit).map (·.id)) results) v.tables := by
  have listed : ((w.tables.overdueWithin lower upper w.now).take limit).Sublist w.tables.orders :=
    (List.take_sublist _ _).trans (List.filter_sublist.trans List.filter_sublist)
  obtain ⟨os, reads⟩ := ready.reads listed
  refine outcomes_tried s.attempts still codes reads fun o here => ?_
  obtain ⟨r, tried, read⟩ := forall₂_mem reads.read o here
  obtain ⟨within, late⟩ := List.mem_filter.mp (List.mem_of_mem_take tried)
  have pending := (of_decide_eq_true (List.mem_filter.mp within).2).1
  obtain ⟨_, rfl⟩ := readOrder_values read
  simpa [Order.isDue, isDue, isOverdue, pending, OrderStatus.isTerminal] using late

end

end Service

/-- A sweep that tries certain orders, one after another, with success for some of them. -/
structure Sweeps (w : World) (e : Event) (tried : List OrderRow) (won : List Int)
    (count : SweepCount) : Prop where
  answered : w.answer e = .ok (.swept count)
  /-- Each attempt expires its order or fails, and the sweep does what they do. -/
  attempts : ∃ results v,
    Service.outcomes ((tried.map (·.id)).map (Service.expireOrder e.settings.attempts))
      (w.facing e) = .ok results v ∧
    (∀ result ∈ results, result = .ok true ∨ ∃ f, result = .error f) ∧
    won = Service.succeeded (tried.map (·.id)) results ∧
    (w.after e).tables = v.tables ∧ (w.after e).snapshots = v.snapshots
  among : won.Sublist (tried.map (·.id))
  expired : count.expired = won.length
  failed : count.expired + count.failed = tried.length
  swept : Swept e.now w.tables won (w.after e).tables

theorem sweep_sweeps {w v u : World} {e : Event} {tried : List OrderRow} {found : Nat}
    {results : List (Except Fault Bool)} (asked : e.command = .sweep)
    (run : Service.outcomes ((tried.map (·.id)).map (Service.expireOrder e.settings.attempts))
      (w.facing e) = .ok results v)
    (each : ∀ result ∈ results, result = .ok true ∨ ∃ f, result = .error f)
    (swept : Swept e.now w.tables (Service.succeeded (tried.map (·.id)) results) v.tables)
    (ran : Service.sweep e.settings (w.facing e) = .ok (results.foldl Service.tally { found }) u)
    (alike : u.Alike Eq v) :
    ∃ won count, Sweeps w e tried won count ∧ count.found = found := by
  have performed : e.command.perform e.settings (w.facing e) =
      .ok (.swept (results.foldl Service.tally { found })) u := by
    rw [asked]
    exact Service.map_ok ran
  obtain ⟨answered, after⟩ := event_of_run performed
  have same := Service.outcomes_length run
  rw [List.length_map] at same
  obtain ⟨looked, expired, total⟩ := Service.tally_counts same each { found }
  simp only [Nat.zero_add, List.length_map] at expired total
  refine ⟨_, _, ⟨answered, ?_, Service.succeeded_sublist _ results, expired, total, ?_⟩, looked⟩
  · exact ⟨results, v, run, each, rfl, after ▸ alike.tables.symm, after ▸ alike.snapshots⟩
  · rw [after, ← alike.tables]
    exact swept

/-- On any run with a clock that does not go back and one lifetime of orders, a sweep that is
not disturbed tries the first of the overdue orders in its window, as many as its limit allows,
and no others. Those that it cannot expire are left as they are. Its statements carry the limit
and the ids, which have to fit for none of them to be refused. -/
theorem limit_hides_no_overdue {w : World} (empty : w.tables = {}) {es : List Event}
    (alone : ∀ e ∈ es, e.disruptions.Alone) {ttl : Span}
    (lasting : ∀ e ∈ es, e.settings.expiry.orderTtl = ttl)
    (onward : (es.flatMap Event.times).Pairwise (· ≤ ·)) {e : Event} (asked : e.command = .sweep)
    (quiet : e.disruptions.Quiet) (stands : e.disruptions.ticks = []) {lower upper : Moment}
    (below : e.now.shift? (-e.settings.expiry.threshold) = some lower)
    (above : e.now.shift? (-e.settings.expiry.bottomThreshold) = some upper)
    (fits : Service.fits64 e.settings.expiry.maxSize.1 = true)
    (fit : ∀ r ∈ (w.run es).tables.orders, Service.fits64 r.id = true) :
    ((w.run es).tables.overdueWithin lower upper e.now).Pairwise (fun a b => a.id < b.id) ∧
    ∃ won count,
      Sweeps (w.run es) e (((w.run es).tables.overdueWithin lower upper e.now).take
        e.settings.expiry.maxSize.1) won count ∧
      count.expired + count.failed = min e.settings.expiry.maxSize.1
        ((w.run es).tables.overdueWithin lower upper e.now).length ∧
      count.expired + count.failed ≤ count.found ∧ count.found ≤ e.settings.expiry.maxSize.1 := by
  have reached : Reachable (fun _ => True) (w.run es) :=
    (Reachable.start empty).run fun e given => ⟨alone e given, trivial⟩
  have ready : (w.run es).tables.Ready := reached.ready fit
  have still : ((w.run es).facing e).Still := ⟨quiet, stands⟩
  have untouched : ∀ r ∈ (w.run es).tables.orders, r.status = .pending → r.updatedAt = none := by
    intro r here pending
    exact ((run_rows_tell empty alone r here).resolve_right fun h => h.1 pending).2.2
  have dated := run_rows_dated empty alone lasting onward
  have within : ((w.run es).tables.overdueWithin lower upper e.now).Sublist
      ((w.run es).tables.pendingWithin lower upper) := List.filter_sublist
  refine ⟨ready.increasing.sublist (within.trans List.filter_sublist), ?_⟩
  obtain ⟨results, v, run, each, swept⟩ := Service.overdue_outcomes (s := e.settings) still ready
    reached.sound.codes lower upper e.settings.expiry.maxSize.1
  have ends := Service.sweep_overdue (s := e.settings) still ready dated untouched below above fits
  rw [Service.countExpiries, Service.bind_of_run run] at ends
  obtain ⟨u, ran, alike⟩ := ends.ok
  obtain ⟨won, count, sweeps, found⟩ := sweep_sweeps asked run each swept ran alike
  have total : count.expired + count.failed = min e.settings.expiry.maxSize.1
      ((w.run es).tables.overdueWithin lower upper e.now).length :=
    sweeps.failed.trans List.length_take
  have looked : count.found = min e.settings.expiry.maxSize.1
      ((w.run es).tables.pendingWithin lower upper).length := found.trans List.length_take
  have fewer := within.length_le
  exact ⟨won, count, sweeps, total, by omega, by omega⟩

/-- An hour after tea and cake were ordered both are tried. -/
theorem full_tea_and_cake_tried :
    ∃ won count, Sweeps (World.opening.run fullTeaEvents) .hourlySweep
        (World.opening.run fullTeaEvents).tables.orders won count ∧
      count.expired + count.failed = 2 := by
  have alone : ∀ e ∈ fullTeaEvents, e.disruptions.Alone := by
    simp [fullTeaEvents, teaEvents, Event.quiet, quiet_nothing.alone]
  have lasting : ∀ e ∈ fullTeaEvents, e.settings.expiry.orderTtl = 1800000000 := by
    simp [fullTeaEvents, teaEvents, Event.quiet]
  have onward : (fullTeaEvents.flatMap Event.times).Pairwise (· ≤ ·) := by decide +kernel
  have fit : ∀ r ∈ (World.opening.run fullTeaEvents).tables.orders,
      Service.fits64 r.id = true := by
    decide +kernel
  have overdue : (World.opening.run fullTeaEvents).tables.overdueWithin (.minutes 0) (.minutes 25)
        (.minutes 60) = (World.opening.run fullTeaEvents).tables.orders ∧
      (World.opening.run fullTeaEvents).tables.orders.length = 2 := by
    decide +kernel
  have below : Event.hourlySweep.now.shift? (-Event.hourlySweep.settings.expiry.threshold) =
      some (.minutes 0) := by
    decide
  have above : Event.hourlySweep.now.shift? (-Event.hourlySweep.settings.expiry.bottomThreshold) =
      some (.minutes 25) := by
    decide
  obtain ⟨_, won, count, sweeps, total, _⟩ := limit_hides_no_overdue (w := World.opening) rfl alone
    lasting onward rfl quiet_nothing rfl below above (by decide) fit
  have limit : Event.hourlySweep.settings.expiry.maxSize.1 = 1000 := rfl
  have now : Event.hourlySweep.now = .minutes 60 := rfl
  rw [limit, now, overdue.1, List.take_of_length_le (by omega)] at sweeps
  rw [limit, now, overdue.1, overdue.2] at total
  exact ⟨won, count, sweeps, total⟩

def Event.immenseSweep : Event where
  settings := { expiry := { threshold := 3600000000, maxSize := ⟨2 ^ 63, by decide⟩ } }
  now := .minutes 60
  command := .sweep

/-- The ordered tea is overdue an hour later, and a sweep with a limit that does not fit fails
without trying it. -/
theorem immense_limit_hides_overdue :
    let e := Event.immenseSweep
    let w := World.opening.run teaEvents
    (∀ e ∈ teaEvents, e.disruptions.Alone ∧ e.settings.expiry.orderTtl = 1800000000) ∧
      (teaEvents.flatMap Event.times ++ e.times).Pairwise (· ≤ ·) ∧
      e.disruptions.Quiet ∧ e.disruptions.ticks = [] ∧
      e.now.shift? (-e.settings.expiry.threshold) = some (.minutes 0) ∧
      e.now.shift? (-e.settings.expiry.bottomThreshold) = some (.minutes 25) ∧
      (w.tables.overdueWithin (.minutes 0) (.minutes 25) e.now).map (·.id) = [1] ∧
      w.answer e = .error .beyond64 ∧ (w.after e).tables = w.tables := by
  intro e w
  have lasting : ∀ e ∈ teaEvents, e.disruptions.Alone ∧
      e.settings.expiry.orderTtl = 1800000000 := by
    simp [teaEvents, Event.quiet, quiet_nothing.alone]
  have onward : (teaEvents.flatMap Event.times ++ e.times).Pairwise (· ≤ ·) := by decide +kernel
  have below : e.now.shift? (-e.settings.expiry.threshold) = some (.minutes 0) := by decide
  have above : e.now.shift? (-e.settings.expiry.bottomThreshold) = some (.minutes 25) := by decide
  have overdue : (w.tables.overdueWithin (.minutes 0) (.minutes 25) e.now).map (·.id) = [1] := by
    decide +kernel
  have failed : Service.sweep e.settings (w.facing e) = .error .beyond64 (w.facing e).turned :=
    Service.sweep_unfit ⟨quiet_nothing, rfl⟩ below above (by decide)
  have performed : e.command.perform e.settings (w.facing e) =
      .error .beyond64 (w.facing e).turned := Service.map_error.mpr failed
  refine ⟨lasting, onward, quiet_nothing, rfl, below, above, overdue, ?_, ?_⟩
  · rw [World.answer, performed]
  · rw [World.after, performed]
    rfl

end Stockroom
