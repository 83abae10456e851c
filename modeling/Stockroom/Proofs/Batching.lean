import Mathlib.Data.List.Nodup
import Mathlib.Data.List.Sort
import Stockroom.Proofs.Sweeping

/-! Sweeps whose batches cannot be seen.
For every size of the batches a sweep answers the same and leaves the same tables and
snapshots. While the clock stands still it does what the plain procedure does, which expires
the picked orders one after another; there an expiry that fails might as well not have been
tried. -/
namespace Stockroom

def Settings.inBatches (s : Settings) (size : Field.Positive) : Settings :=
  { s with expiry := { s.expiry with batchSize := size } }

/- What is picked -/

/-- The orders in one of the states that were last touched within a window, the first `limit`
of them at most; a negative limit is none. -/
def Tables.touchedWithin (t : Tables) (lower upper : Moment) (statuses : List OrderStatus)
    (limit : Int) : List OrderRow :=
  let hits := t.orders.filter fun r =>
    decide (lower.toStored ≤ r.touchedAt.toStored) &&
      decide (r.touchedAt.toStored ≤ upper.toStored) && statuses.contains r.status
  if limit < 0 then hits else hits.take limit.toNat

theorem touchedWithin_sublist (t : Tables) (lower upper : Moment) (statuses : List OrderStatus)
    (limit : Int) : (t.touchedWithin lower upper statuses limit).Sublist t.orders := by
  unfold Tables.touchedWithin
  dsimp only
  split
  · exact List.filter_sublist
  · exact (List.take_sublist _ _).trans List.filter_sublist

theorem idsTouchedWithin_eq {t : Tables} (sorted : t.orders.Pairwise fun a b => a.id < b.id)
    (lower upper : Moment) (statuses : List OrderStatus) (limit : Int) :
    t.idsTouchedWithin lower upper statuses limit =
      (t.touchedWithin lower upper statuses limit).map (·.id) := by
  unfold Tables.idsTouchedWithin Tables.touchedWithin
  dsimp only
  rw [List.mergeSort_of_pairwise]
  · split
    · rfl
    · rw [List.map_take]
  · exact List.pairwise_map.mpr ((sorted.sublist List.filter_sublist).imp fun less => by
      simpa using Int.le_of_lt less)

structure Tables.Ready (t : Tables) : Prop where
  increasing : t.orders.Pairwise fun a b => a.id < b.id
  legible : Legible t
  fit : ∀ r ∈ t.orders, Service.fits64 r.id = true

theorem Tables.Ready.reads {t : Tables} (ready : t.Ready) {rows : List OrderRow}
    (known : rows.Sublist t.orders) : ∃ os, t.Reads rows os := by
  have read : ∃ os, List.Forall₂ (fun r o => t.readOrder r = .ok o) rows os := by
    have member : ∀ r ∈ rows, r ∈ t.orders := fun r here => known.subset here
    clear known
    induction rows with
    | nil => exact ⟨[], .nil⟩
    | cons r rows ih =>
      obtain ⟨first, later⟩ := List.forall_mem_cons.mp member
      obtain ⟨o, read⟩ := ready.legible.order first
      obtain ⟨os, rest⟩ := ih later
      exact ⟨o :: os, .cons read rest⟩
  obtain ⟨os, read⟩ := read
  exact ⟨os, ready.increasing, known, fun r here => ready.fit r (known.subset here), read⟩

theorem Reachable.ready {admits : Command → Prop} {w : World} (reached : Reachable admits w)
    (fit : ∀ r ∈ w.tables.orders, Service.fits64 r.id = true) : w.tables.Ready :=
  ⟨reached.increasing, reached.legible, fit⟩

namespace Service

variable {S : Recent → Recent → Prop} {w v : World}

theorem sweepIds_meets (s : Settings.Expiry) :
    (sweepIds s).Meets w
      (fun ids t => t = w.tables ∧ ∃ lower upper,
        w.clock.shift? (-s.threshold) = some lower ∧
        w.clock.shift? (-s.bottomThreshold) = some upper ∧
        ids = w.tables.idsTouchedWithin lower upper [.pending] s.maxSize.1)
      (fun f => (f = .beyondCalendar ∧ (w.clock.shift? (-s.threshold) = none ∨
        w.clock.shift? (-s.bottomThreshold) = none)) ∨ Unfit [(s.maxSize.1 : Int)] f) := by
  apply now_meets.bind
  rintro m u ⟨rfl, _, same⟩ _
  refine ((later_meets _ _).mono (fun _ _ h => h) fun f h => .inl ⟨h.1, .inl h.2⟩).bind ?_
  rintro lower u₁ ⟨same₁, below⟩ _
  refine ((later_meets _ _).mono (fun _ _ h => h) fun f h => .inl ⟨h.1, .inr h.2⟩).bind ?_
  rintro upper u₂ ⟨same₂, above⟩ _
  have kept := same₂.trans (same₁.trans same)
  refine (query_meets _ _).mono ?_ fun f h => .inr h
  rintro ids t ⟨rfl, rfl, _⟩
  exact ⟨kept, lower, upper, below, above, by rw [kept]⟩

theorem sweepIds_reads {s : Settings.Expiry} {ids : List Int} (quiet : w.Quiet)
    (ready : w.tables.Ready) (run : sweepIds s w = .ok ids v) :
    w.Leads v ∧ v.tables = w.tables ∧
      ∃ rows os, ids = rows.map (·.id) ∧ v.tables.Reads rows os := by
  obtain ⟨⟨same, lower, upper, _, _, rfl⟩, lead⟩ := (sweepIds_meets s quiet.alone).of_ok run
  have known := touchedWithin_sublist w.tables lower upper [.pending] s.maxSize.1
  obtain ⟨os, reads⟩ := ready.reads known
  exact ⟨lead, same, _, os, idsTouchedWithin_eq ready.increasing .., same ▸ reads⟩

theorem note_first {α : Type} (writer : Journal.Writer) (level : Journal.Level)
    (message : String) {f : Unit → Service α} {r : EStateM.Result Fault World α}
    (alike : w.Alike Eq v)
    (rest : ∀ w' : World, w'.Alike Eq v → w'.tables = w.tables →
      EndsAlike (World.Alike Eq) (f () w') r) :
    EndsAlike (World.Alike Eq) ((note writer level message >>= f) w) r := by
  refine rest { w with journal := w.journal ++ [⟨writer, level, message⟩] } ?_ rfl
  exact ⟨alike.tables, alike.snapshots, alike.now, alike.ticks, alike.quiet, alike.quiet'⟩

def sweepPicked (s : Settings) (ids : List Int) : Service SweepCount := do
  if ids.isEmpty then
    note .expiry .debug "No pending orders to expire"
    return {}
  note .expiry .info s!"Found {ids.length} pending orders to check for expiration"
  let count ← (batches s.expiry.batchSize.1 ids).foldlM (sweepBatch s.attempts)
    { found := ids.length }
  note .expiry .info
    s!"Total expired orders: {count.expired}. Failed: {count.failed}. Total time: {sweepMillis} ms."
  return count

theorem sweep_eq (s : Settings) : sweep s = sweepIds s.expiry >>= sweepPicked s := rfl

theorem sweepPicked_alike {rows : List OrderRow} {os : List Order} (s : Settings)
    (reads : w.tables.Reads rows os) (alike : w.Alike Eq v) :
    EndsAlike (World.Alike Eq) (sweepPicked s (rows.map (·.id)) w)
      (os.foldlM (sweepOrder s.attempts) { found := (rows.map (·.id)).length } v) := by
  unfold sweepPicked
  split
  · rename_i empty
    obtain rfl : rows = [] := by simpa using empty
    cases reads.read
    exact note_first _ _ _ alike fun w' alike _ => ⟨rfl, alike⟩
  · refine note_first _ _ _ alike fun w' alike same => ?_
    rw [← bind_pure (os.foldlM _ _)]
    have batched := batches_flatten s.expiry.batchSize.2 (rows.map (·.id))
    refine endsAlike_bind (sweepBatches_alike batched (same ▸ reads) alike) ?_
    intro count u u' _ _ alike
    exact note_first _ _ _ alike fun _ alike _ => ⟨rfl, alike⟩

theorem sweep_inBatches (s : Settings) (b₁ b₂ : Field.Positive) (quiet : w.Quiet)
    (ready : w.tables.Ready) :
    EndsAlike (World.Alike Eq) (sweep (s.inBatches b₁) w) (sweep (s.inBatches b₂) w) := by
  rw [sweep_eq, sweep_eq]
  refine endsAlike_bind (sweepIds_matches s.expiry w w quiet.alike) ?_
  intro ids w' v' left _ alike
  obtain ⟨_, _, rows, os, rfl, reads⟩ := sweepIds_reads quiet ready left
  have reads' : v'.tables.Reads rows os := alike.tables ▸ reads
  exact (sweepPicked_alike (s.inBatches b₁) reads alike).trans
    (sweepPicked_alike (s.inBatches b₂) reads' alike.quiet'.alike).symm

theorem sweep_expireEach (s : Settings) (still : w.Still) (ready : w.tables.Ready) :
    EndsAlike (World.Alike Eq) (sweep s w) (expireEach s w) := by
  rw [sweep_eq]
  refine endsAlike_bind (sweepIds_matches s.expiry w w still.1.alike) ?_
  intro ids w' v' left _ alike
  obtain ⟨lead, _, rows, os, rfl, reads⟩ := sweepIds_reads still.1 ready left
  have still' := lead.still still
  exact (sweepPicked_alike s reads still'.1.alike).trans
    (sweepOrders_outcomes s.attempts _ still' reads alike)

/- Expiries that fail -/

theorem outcomes_append {α : Type} {xs ys : List (Service α)} {rs : List (Except Fault α)} :
    outcomes (xs ++ ys) w = .ok rs v ↔ ∃ as u bs, outcomes xs w = .ok as u ∧
      outcomes ys u = .ok bs v ∧ rs = as ++ bs := by
  induction xs generalizing w rs with
  | nil =>
    constructor
    · exact fun run => ⟨[], w, rs, rfl, run, rfl⟩
    · rintro ⟨as, u, bs, first, second, rfl⟩
      cases first
      exact second
  | cons x xs ih =>
    simp only [List.cons_append, outcomes]
    constructor
    · intro run
      obtain ⟨r, u, one, rest⟩ := bind_ok.mp run
      obtain ⟨rs', u', more, last⟩ := bind_ok.mp rest
      cases last
      obtain ⟨as, u'', bs, first, second, rfl⟩ := ih.mp more
      refine ⟨r :: as, u'', bs, ?_, second, rfl⟩
      exact bind_ok.mpr ⟨r, u, one, bind_ok.mpr ⟨as, u'', first, rfl⟩⟩
    · rintro ⟨as, u, bs, first, second, rfl⟩
      obtain ⟨r, u', one, rest⟩ := bind_ok.mp first
      obtain ⟨rs', u'', more, last⟩ := bind_ok.mp rest
      cases last
      exact bind_ok.mpr ⟨r, u', one, bind_ok.mpr ⟨_, v, ih.mpr ⟨_, _, _, more, second, rfl⟩, rfl⟩⟩

theorem outcomes_length {α : Type} {xs : List (Service α)} {rs : List (Except Fault α)}
    (run : outcomes xs w = .ok rs v) : rs.length = xs.length := by
  induction xs generalizing w rs with
  | nil =>
    cases run
    rfl
  | cons x xs ih =>
    obtain ⟨r, u, one, rest⟩ := bind_ok.mp run
    obtain ⟨rs', u', more, last⟩ := bind_ok.mp rest
    cases last
    rw [List.length_cons, List.length_cons, ih more]

theorem outcomes_expires (s : Settings.Attempts) (ids : List Int) :
    (outcomes (ids.map (expireOrder s))).Expires (· ∈ ids) := by
  induction ids with
  | nil => exact expires_pure []
  | cons id ids ih =>
    refine ((expireOrder_expires s id).outcome.mono ?_).bind fun r => (ih.mono ?_).bind fun rs => ?_
    · rintro _ rfl
      exact List.mem_cons_self
    · exact fun _ later => List.mem_cons_of_mem _ later
    · exact expires_pure _

theorem outcomes_matches {R : World → World → Prop} [Kept R] (s : Settings.Attempts)
    (ids : List Int) :
    (outcomes (ids.map (expireOrder s))).Matches R (outcomes (ids.map (expireOrder s))) := by
  induction ids with
  | nil => exact matches_pure []
  | cons id ids ih =>
    exact (expireOrder_matches s id).outcome.bind fun r => ih.bind fun rs => matches_pure (r :: rs)

theorem outcome_error {α : Type} {x : Service α} {f : Fault} :
    outcome x w = .ok (.error f) v ↔ x w = .error f v := by
  unfold outcome
  cases x w <;> simp

theorem expireOrder_failed {s : Settings.Attempts} {id : Int} {f : Fault} (alone : w.Alone)
    (failed : expireOrder s id w = .error f v) : v.tables = w.tables ∧ w.Leads v :=
  ⟨(expireOrder_restores s id alone).of_error failed,
    ((expireOrder_meets id alone).of_error failed).2⟩

/-- An expiry that fails changes nothing, neither for its order nor for the ones after it. -/
theorem failed_expiry_skipped {s : Settings.Attempts} {before later : List Int} {id : Int}
    {done rest : List (Except Fault Bool)} {f : Fault} (still : w.Still)
    (run : outcomes ((before ++ id :: later).map (expireOrder s)) w =
      .ok (done ++ .error f :: rest) v) (same : done.length = before.length) :
    ∃ u, outcomes ((before ++ later).map (expireOrder s)) w = .ok (done ++ rest) u ∧
      u.tables = v.tables := by
  rw [List.map_append, List.map_cons] at run
  obtain ⟨as, u, bs, first, second, whole⟩ := outcomes_append.mp run
  obtain ⟨r, u', failed, third⟩ := bind_ok.mp second
  obtain ⟨rs, u'', last, shape⟩ := bind_ok.mp third
  cases shape
  have long := outcomes_length first
  rw [List.length_map] at long
  obtain ⟨rfl, tail⟩ := List.append_inj whole (by omega)
  cases tail
  -- The state after the failure differs from the one before it in snapshots and journal only.
  obtain ⟨lead, _⟩ := (outcomes_expires s before w 0 still.1.alone).of_ok first
  have still' := lead.still still
  obtain ⟨kept, onward⟩ := expireOrder_failed still'.1.alone (outcome_error.mp failed)
  have after : u.Alike (fun _ _ => True) u' :=
    ⟨kept, trivial, onward.now still', (onward.still still').2.trans still'.2.symm, still'.1,
      onward.quiet still'.1⟩
  have ends := outcomes_matches s later u u' after
  rw [last] at ends
  cases skipped : outcomes (later.map (expireOrder s)) u with
  | error g w' =>
    rw [skipped] at ends
    exact ends.elim
  | ok bs w' =>
    rw [skipped] at ends
    obtain ⟨rfl, alike⟩ := ends
    refine ⟨w', ?_, alike.tables.symm⟩
    rw [List.map_append]
    exact outcomes_append.mpr ⟨_, u, _, first, skipped, rfl⟩

end Service

/-- Whatever the sizes of its batches, an undisturbed sweep gives the same answer and leaves the
same tables and snapshots. If the clock stands still meanwhile, it does what the plain procedure
does with the ids it picks, by ascending id; and an order whose expiry fails there is left as it
was, and so are all the others as if it had not been tried. The ids have to fit the statements
that carry them, or those would be refused; a batch of more ids than the engine takes as
parameters of one statement is refused too, so a sweep with one is disturbed. -/
theorem batches_do_not_show {w : World} (reached : Reachable (fun _ => True) w)
    (fit : ∀ r ∈ w.tables.orders, Service.fits64 r.id = true) (e : Event)
    (quiet : e.disruptions.Quiet) :
    (∀ b₁ b₂, shownBy (Service.sweep (e.settings.inBatches b₁) (w.facing e)) =
      shownBy (Service.sweep (e.settings.inBatches b₂) (w.facing e))) ∧
    (e.disruptions.ticks = [] →
      (∀ b, shownBy (Service.sweep (e.settings.inBatches b) (w.facing e)) =
        shownBy (Service.expireEach e.settings (w.facing e))) ∧
      ∀ ids v, Service.sweepIds e.settings.expiry (w.facing e) = .ok ids v →
        ids.Pairwise (· < ·) ∧
        ∀ before id later done f rest u, ids = before ++ id :: later →
          Service.outcomes (ids.map (Service.expireOrder e.settings.attempts)) v =
            .ok (done ++ .error f :: rest) u → done.length = before.length →
          u.tables.orderWithId? id = w.tables.orderWithId? id ∧
          u.tables.linesOf id = w.tables.linesOf id ∧
          ∃ u', Service.outcomes
              ((before ++ later).map (Service.expireOrder e.settings.attempts)) v =
            .ok (done ++ rest) u' ∧ u'.tables = u.tables) := by
  have ready : (w.facing e).tables.Ready := reached.ready fit
  have calm : (w.facing e).Quiet := quiet
  refine ⟨fun b₁ b₂ => (Service.sweep_inBatches e.settings b₁ b₂ calm ready).shown, ?_⟩
  intro stands
  have still : (w.facing e).Still := ⟨calm, stands⟩
  refine ⟨fun b => (Service.sweep_expireEach (e.settings.inBatches b) still ready).shown, ?_⟩
  intro ids v picked
  obtain ⟨lead, same, rows, os, rfl, reads⟩ := Service.sweepIds_reads calm ready picked
  have increasing : (rows.map (·.id)).Pairwise (· < ·) :=
    List.pairwise_map.mpr (reads.increasing.sublist reads.known)
  refine ⟨increasing, ?_⟩
  intro before id later done f rest u listed run aligned
  rw [listed] at run increasing
  obtain ⟨u', skipped, alike⟩ := Service.failed_expiry_skipped (lead.still still) run aligned
  -- Without the order the others are what they are with it, so they show that it was not touched.
  obtain ⟨_, tried, among, commits⟩ :=
    (Service.outcomes_expires _ _ v 0 (lead.still still).1.alone).of_ok skipped
  have touched := commits_touched commits
  have other : id ∉ tried := by
    intro here
    have distinct : (before ++ id :: later).Nodup := increasing.imp fun less => Int.ne_of_lt less
    exact (List.nodup_cons.mp (List.nodup_middle.mp distinct)).1 (among id here)
  rw [← alike]
  have row := touched.orderWithId other
  rw [same] at row
  refine ⟨row, ?_, u', skipped, rfl⟩
  rw [Tables.linesOf, touched.lines, same]
  rfl

/-- Tea and cake are ordered, and then there is all the tea there can be, so that no tea can be
given back. -/
def fullTeaEvents : List Event :=
  teaEvents ++ [.quiet 2 (.createProduct "cake" "Cake" 5 (.ofCents 250)),
    .quiet 3 (.createOrder [("cake", 1)]),
    .quiet 4 (.updateProduct "tea" "Tea" (.ofCents 150) (some (2 ^ 63 - 1)))]

/-- The order of tea cannot be expired and that of cake is, be they in two batches or in one. -/
theorem full_tea_spares_cake :
    let w := (World.opening.run fullTeaEvents).facing .hourlySweep
    let s := Event.hourlySweep.settings
    (shownBy (Service.sweep (s.inBatches ⟨1, by decide⟩) w)).1 = .ok ⟨2, 1, 1⟩ ∧
      (shownBy (Service.sweep (s.inBatches ⟨2, by decide⟩) w)).1 = .ok ⟨2, 1, 1⟩ := by
  have alone : ∀ e ∈ fullTeaEvents, e.disruptions.Alone ∧ True := by
    simp [fullTeaEvents, teaEvents, Event.quiet, quiet_nothing.alone]
  have fit : ∀ r ∈ (World.opening.run fullTeaEvents).tables.orders,
      Service.fits64 r.id = true := by
    decide +kernel
  have hidden := (batches_do_not_show ((Reachable.start rfl).run alone) fit .hourlySweep
    quiet_nothing).2 rfl
  have each : (shownBy (Service.expireEach Event.hourlySweep.settings
      ((World.opening.run fullTeaEvents).facing .hourlySweep))).1 = .ok ⟨2, 1, 1⟩ := by
    -- The sort that the ids are picked with cannot be evaluated.
    simp only [Service.expireEach, Service.sweepIds, Service.idsTouchedWithin,
      Tables.idsTouchedWithin, List.mergeSort_eq_insertionSort]
    decide +kernel
  exact ⟨(congrArg Prod.fst (hidden.1 ⟨1, by decide⟩)).trans each,
    (congrArg Prod.fst (hidden.1 ⟨2, by decide⟩)).trans each⟩

end Stockroom
