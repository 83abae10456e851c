import Stockroom.Proofs.Likeness
import Stockroom.Proofs.Readable

namespace Stockroom

open OrderRow (Follows)

/- Batches -/

theorem batchesWithin_flatten {α : Type} {size fuel : Nat} (positive : 0 < size) {xs : List α}
    (enough : xs.length ≤ fuel) : (batchesWithin size fuel xs).flatten = xs := by
  induction fuel generalizing xs with
  | zero =>
    rw [List.length_eq_zero_iff.mp (Nat.le_zero.mp enough)]
    rfl
  | succ fuel ih =>
    unfold batchesWithin
    split
    · rename_i empty
      rw [List.isEmpty_iff.mp empty]
      rfl
    · rename_i nonempty
      have long : xs.length ≠ 0 := by simpa using nonempty
      rw [List.flatten_cons, ih (by rw [List.length_drop]; omega), List.take_append_drop]

theorem batches_flatten {α : Type} {size : Nat} (positive : 0 < size) (xs : List α) :
    (batches size xs).flatten = xs := batchesWithin_flatten positive (Nat.le_refl _)

/- Orders that are not concerned -/

/-- Of the orders only those with the ids may have changed, and no line. -/
structure Tables.Touched (ids : List Int) (t t' : Tables) : Prop where
  lines : t'.lines = t.lines
  orders : ∃ g : OrderRow → OrderRow, t'.orders = t.orders.map g ∧
    ∀ r, (g r).id = r.id ∧ (r.id ∉ ids → g r = r)

namespace Tables.Touched

variable {ids ids' : List Int} {t u v : Tables}

theorem refl (ids : List Int) (t : Tables) : t.Touched ids t :=
  ⟨rfl, id, by simp, by simp⟩

theorem trans (first : t.Touched ids u) (second : u.Touched ids' v) :
    t.Touched (ids ++ ids') v := by
  obtain ⟨g, after, kept⟩ := first.orders
  obtain ⟨g', after', kept'⟩ := second.orders
  refine ⟨second.lines.trans first.lines, g' ∘ g, by rw [after', after, List.map_map], ?_⟩
  intro r
  refine ⟨(kept' _).1.trans (kept r).1, fun other => ?_⟩
  rw [List.mem_append, not_or] at other
  rw [Function.comp_apply, (kept r).2 other.1, (kept' r).2 other.2]

theorem mono (h : t.Touched ids u) (sub : ids ⊆ ids') : t.Touched ids' u := by
  obtain ⟨g, after, kept⟩ := h.orders
  refine ⟨h.lines, g, after, fun r => ⟨(kept r).1, fun other => ?_⟩⟩
  exact (kept r).2 fun here => other (sub here)

theorem readOrder (h : t.Touched ids u) (r : OrderRow) : u.readOrder r = t.readOrder r := by
  unfold Tables.readOrder Tables.linesOf
  rw [h.lines]

theorem sublist (h : t.Touched ids u) {rows : List OrderRow} (known : rows.Sublist t.orders)
    (other : ∀ r ∈ rows, r.id ∉ ids) : rows.Sublist u.orders := by
  obtain ⟨g, after, kept⟩ := h.orders
  have same : rows.map g = rows :=
    (List.map_congr_left fun r here => (kept r).2 (other r here)).trans (List.map_id _)
  rw [after, ← same]
  exact known.map g

theorem orderWithId (h : t.Touched ids u) {id : Int} (other : id ∉ ids) :
    u.orderWithId? id = t.orderWithId? id := by
  obtain ⟨g, after, kept⟩ := h.orders
  unfold Tables.orderWithId?
  rw [after, List.find?_map]
  have same : (fun r : OrderRow => decide (r.id = id)) ∘ g = fun r => decide (r.id = id) := by
    funext r
    simp [(kept r).1]
  rw [same]
  cases found : t.orders.find? fun r => decide (r.id = id) with
  | none => rfl
  | some r =>
    have own : r.id = id := by simpa using List.find?_some found
    rw [Option.map_some, (kept r).2 (own ▸ other)]

theorem increasing (h : t.Touched ids u) (sorted : t.orders.Pairwise fun a b => a.id < b.id) :
    u.orders.Pairwise fun a b => a.id < b.id := by
  obtain ⟨g, after, kept⟩ := h.orders
  rw [after]
  exact List.pairwise_map.mpr (sorted.imp fun {a b} less => by
    rw [(kept a).1, (kept b).1]
    exact less)

end Tables.Touched

theorem Left.touched {times : List Moment} {t t' : Tables} {order : Order} {target : OrderStatus}
    (h : Left times t order target t') : t.Touched [order.id] t' := by
  obtain ⟨m, u, rfl, rest⟩ := h.moved
  have moved : t.Touched [order.id]
      { t with orders := t.orders.map (·.movedTo order.id target m) } := by
    refine ⟨rfl, (·.movedTo order.id target m), rfl, fun r => ⟨movedTo_id .., fun other => ?_⟩⟩
    exact movedTo_other (by simpa using other) target m
  rcases rest with ⟨_, rfl⟩ | ⟨_, released⟩
  · exact moved
  · exact ⟨released.moved.faces.lines.trans moved.lines,
      released.moved.faces.orders ▸ moved.orders⟩

theorem ordersWithIds_of_sublist {t : Tables} (sorted : t.orders.Pairwise fun a b => a.id < b.id)
    {rows : List OrderRow} (known : rows.Sublist t.orders) :
    t.ordersWithIds (rows.map (·.id)) = rows := by
  have selected : t.orders.filter (fun r => (rows.map (·.id)).contains r.id) = rows := by
    generalize t.orders = all at sorted known
    induction known with
    | slnil => rfl
    | @cons rows all r known ih =>
      obtain ⟨above, sorted⟩ := List.pairwise_cons.mp sorted
      have other : r.id ∉ rows.map (·.id) := by
        intro here
        obtain ⟨o, member, same⟩ := List.mem_map.mp here
        have less := above o (known.subset member)
        omega
      rw [List.filter_cons_of_neg (by simpa using other)]
      exact ih sorted
    | @cons_cons rows all r known ih =>
      obtain ⟨above, sorted⟩ := List.pairwise_cons.mp sorted
      rw [List.filter_cons_of_pos (by simp)]
      congr 1
      refine (List.filter_congr fun o here => ?_).trans (ih sorted)
      have less := above o here
      have other : o.id ≠ r.id := by omega
      simp [other]
  rw [Tables.ordersWithIds, selected]
  refine List.mergeSort_of_pairwise ?_
  exact (sorted.sublist known).imp fun less => by simpa using Int.le_of_lt less

theorem commits_touched {ttl : Span} {times : List Moment} {t t' : Tables} {ids : List Int}
    (h : Commits ttl times (ids.map (.leave · .expired)) t t') : t.Touched ids t' := by
  induction ids generalizing t with
  | nil =>
    rw [h.none]
    exact .refl [] t
  | cons id ids ih =>
    cases h with
    | cons one rest =>
      cases one with
      | leave _ _ _ _ left => exact left.touched.trans (ih rest)

/-- Orders by ascending id, and what can be read of them. -/
structure Tables.Reads (t : Tables) (rows : List OrderRow) (os : List Order) : Prop where
  increasing : t.orders.Pairwise fun a b => a.id < b.id
  known : rows.Sublist t.orders
  fit : ∀ r ∈ rows, Service.fits64 r.id = true
  read : List.Forall₂ (fun r o => t.readOrder r = .ok o) rows os

namespace Tables.Reads

variable {t u : Tables} {rows rows' : List OrderRow} {os : List Order}

theorem ids (h : t.Reads rows os) : os.map (·.id) = rows.map (·.id) := by
  have read := h.read
  clear h
  induction read with
  | nil => rfl
  | cons read _ ih =>
    obtain ⟨_, rfl⟩ := readOrder_values read
    rw [List.map_cons, List.map_cons, ih]

theorem touched (h : t.Reads rows os) {ids : List Int} (touched : t.Touched ids u)
    (other : ∀ r ∈ rows, r.id ∉ ids) : u.Reads rows os where
  increasing := touched.increasing h.increasing
  known := touched.sublist h.known other
  fit := h.fit
  read := h.read.imp fun r _ read => (touched.readOrder r).trans read

theorem split (h : t.Reads (rows ++ rows') os) :
    ∃ os₁ os₂, os = os₁ ++ os₂ ∧ t.Reads rows os₁ ∧ t.Reads rows' os₂ ∧
      ∀ r ∈ rows', r.id ∉ rows.map (·.id) := by
  have read := h.read
  refine ⟨os.take rows.length, os.drop rows.length, (List.take_append_drop _ _).symm, ?_, ?_, ?_⟩
  · refine ⟨h.increasing, (List.sublist_append_left _ _).trans h.known, ?_, ?_⟩
    · exact fun r here => h.fit r (List.mem_append_left _ here)
    · simpa using List.forall₂_take rows.length read
  · refine ⟨h.increasing, (List.sublist_append_right _ _).trans h.known, ?_, ?_⟩
    · exact fun r here => h.fit r (List.mem_append_right _ here)
    · simpa using List.forall₂_drop rows.length read
  · intro r later here
    obtain ⟨o, earlier, same⟩ := List.mem_map.mp here
    have less := (List.pairwise_append.mp (h.increasing.sublist h.known)).2.2 o earlier r later
    omega

theorem cons {r : OrderRow} (h : t.Reads (r :: rows) os) :
    ∃ o os', os = o :: os' ∧ t.Reads [r] [o] ∧ t.Reads rows os' ∧ ∀ r' ∈ rows, r'.id ∉ [r.id] := by
  have parts : t.Reads ([r] ++ rows) os := h
  obtain ⟨os₁, os₂, rfl, reads₁, reads₂, other⟩ := parts.split
  obtain ⟨o, rfl⟩ : ∃ o, os₁ = [o] := by
    cases reads₁.read with
    | cons _ rest =>
      cases rest
      exact ⟨_, rfl⟩
  exact ⟨o, os₂, rfl, reads₁, reads₂, other⟩

end Tables.Reads

namespace Service

variable {S : Recent → Recent → Prop} {s : Settings.Attempts} {w v : World}

theorem turn_quiet (quiet : w.Quiet) : turn w = .ok () w.turned := by
  have met : turn.Meets w (fun _ t => t = w.tables) fun _ => False := turn_meets
  have ends := met quiet.alone
  unfold Ends at ends
  cases run : turn w with
  | ok u v => rw [turn_ok run]
  | error f v =>
    rw [run] at ends
    exact (ends.1.elim id fun disturbed => disturbed.1 quiet).elim

theorem turned_alike (quiet : w.Quiet) : w.Alike Eq w.turned := by
  refine ⟨rfl, rfl, rfl, rfl, quiet, ?_⟩
  have left : w.disruptions.Leaves w.turned.disruptions :=
    { Disruptions.Leaves.refl w.disruptions with statements := List.tail_subset _ }
  exact left.quiet quiet

theorem ordersWithIds_quiet {rows : List OrderRow} {os : List Order} (quiet : w.Quiet)
    (reads : w.tables.Reads rows os) :
    ∃ u, ordersWithIds (rows.map (·.id)) w = .ok os u ∧ w.Alike Eq u := by
  have listed := ordersWithIds_of_sublist reads.increasing reads.known
  have once := turned_alike quiet
  have twice := once.after (turned_alike once.quiet')
  by_cases empty : rows.map (·.id) = []
  · obtain rfl : rows = [] := by simpa using empty
    cases reads.read
    exact ⟨w, rfl, quiet.alike⟩
  · refine ⟨w.turned.turned, ?_, twice⟩
    unfold ordersWithIds
    rw [if_neg (by simpa using empty)]
    refine bind_ok.mpr ⟨rows, w.turned, query_ok.mpr ⟨turn_quiet quiet, ?_, listed.symm⟩, ?_⟩
    · simpa using reads.fit
    · exact ordersOf_ok.mpr ⟨turn_quiet once.quiet', reads.read⟩

/- Orders one by one -/

variable [Evictable S]

theorem sweepBatches_alike {bs : List (List Int)} {rows : List OrderRow} {os : List Order}
    {count : SweepCount} (batched : bs.flatten = rows.map (·.id))
    (reads : w.tables.Reads rows os) (alike : w.Alike S v) :
    EndsAlike (World.Alike S) (bs.foldlM (sweepBatch s) count w)
      (os.foldlM (sweepOrder s) count v) := by
  induction bs generalizing rows os count w v with
  | nil =>
    obtain rfl : rows = [] := by simpa using batched.symm
    cases reads.read
    exact ⟨rfl, alike⟩
  | cons b bs ih =>
    obtain ⟨rows₁, rows₂, rfl, rfl, rest⟩ := List.map_eq_append_iff.mp batched.symm
    obtain ⟨os₁, os₂, rfl, reads₁, reads₂, other⟩ := reads.split
    obtain ⟨u, run, idle⟩ := ordersWithIds_quiet alike.quiet reads₁
    have swept : sweepBatch s count (rows₁.map (·.id)) w = os₁.foldlM (sweepOrder s) count u :=
      bind_of_run run
    rw [List.foldlM_cons, List.foldlM_append]
    refine endsAlike_bind ?_ ?_
    · rw [swept]
      exact matches_foldlM (sweepOrder_matches s) os₁ count u v (idle.before alike)
    · intro c w' v' left _ alike'
      rw [swept] at left
      obtain ⟨_, ids, among, commits⟩ :=
        (sweepOrders_expires s os₁ count u 0 idle.quiet'.alone).of_ok left
      rw [reads₁.ids] at among
      refine ih rest.symm (reads₂.touched (commits_touched (idle.tables ▸ commits)) ?_) alike'
      exact fun r here known => other r here (among _ known)

/- One expiry after another -/

def tally (count : SweepCount) : Except Fault Bool → SweepCount
  | .ok true => { count with expired := count.expired + 1 }
  | .ok false => count
  | .error _ => { count with failed := count.failed + 1 }

/-- The plain procedure: every order that is picked is to be expired, one after another. -/
def expireEach (s : Settings) : Service SweepCount := do
  let ids ← sweepIds s.expiry
  let results ← outcomes (ids.map (expireOrder s.attempts))
  return results.foldl tally { found := ids.length }

def countExpiry (s : Settings.Attempts) (count : SweepCount) (id : Int) : Service SweepCount :=
  outcome (expireOrder s id) >>= fun result => pure (tally count result)

def countExpiries (s : Settings.Attempts) (count : SweepCount) (ids : List Int) :
    Service SweepCount :=
  outcomes (ids.map (expireOrder s)) >>= fun results => pure (results.foldl tally count)

theorem countExpiries_cons (s : Settings.Attempts) (count : SweepCount) (id : Int)
    (ids : List Int) :
    countExpiries s count (id :: ids) =
      countExpiry s count id >>= fun count => countExpiries s count ids := by
  simp only [countExpiries, countExpiry, List.map_cons, outcomes, bind_assoc, pure_bind,
    List.foldl_cons]

omit [Evictable S] in
theorem expireOrder_early {r : OrderRow} {o : Order} (s : Settings.Attempts) (still : w.Still)
    (reads : w.tables.Reads [r] [o]) (early : o.isDue w.now = false) :
    ∃ u, expireOrder s r.id w = .ok false u ∧ w.Alike Eq u := by
  obtain ⟨u, run, idle⟩ := ordersWithIds_quiet still.1 reads
  have found : orderWithId r.id w = .ok (some o) u := bind_ok.mpr ⟨[o], u, run, rfl⟩
  have skipped : expireDue s o u = .ok false u := by
    refine bind_ok.mpr ⟨u.now, u, now_idle (idle.still still).2, ?_⟩
    rw [idle.now, early]
    rfl
  have nobody_late : expireIfDue s r.id w = .ok none u :=
    bind_ok.mpr ⟨some o, u, found, bind_ok.mpr ⟨false, u, skipped, rfl⟩⟩
  refine ⟨u.turned, ?_, idle.after (turned_alike idle.quiet')⟩
  refine bind_ok.mpr ⟨(), w, disruptExpiry_alone r.id still.1.alone, ?_⟩
  refine bind_ok.mpr ⟨none, u.turned, ?_, rfl⟩
  exact atomically_ok.mpr ⟨u, nobody_late, turn_quiet idle.quiet'⟩

/-- While the clock stands still a sweep tries the orders that are due and no others. -/
theorem sweepOrder_still (s : Settings.Attempts) (count : SweepCount) (o : Order)
    (still : w.Still) (alike : w.Alike S v) :
    EndsAlike (World.Alike S) (sweepOrder s count o w)
      ((if o.isDue w.now then countExpiry s count o.id else pure count) v) := by
  rw [sweepOrder, bind_of_run (now_idle still.2)]
  cases due : o.isDue w.now with
  | false => exact ⟨rfl, alike⟩
  | true =>
    refine endsAlike_bind ((expireOrder_matches s o.id).outcome w v alike) ?_
    rintro (f | won) w' v' _ _ alike'
    · exact ⟨rfl, alike'.tables, alike'.snapshots, alike'.now, alike'.ticks, alike'.quiet,
        alike'.quiet'⟩
    · cases won with
      | true => exact ⟨rfl, alike'⟩
      | false => exact ⟨rfl, alike'⟩

theorem sweepOrder_outcome {r : OrderRow} {o : Order} (s : Settings.Attempts) (count : SweepCount)
    (still : w.Still) (reads : w.tables.Reads [r] [o]) (alike : w.Alike S v) :
    EndsAlike (World.Alike S) (sweepOrder s count o w) (countExpiry s count r.id v) := by
  have own : o.id = r.id := by simpa using reads.ids
  have tried := sweepOrder_still s count o still alike
  cases due : o.isDue w.now with
  | true =>
    rw [due] at tried
    exact own ▸ tried
  | false =>
    rw [due] at tried
    -- An order that is not due is skipped either way.
    have reads' : v.tables.Reads [r] [o] := alike.tables ▸ reads
    obtain ⟨u, run, idle⟩ := expireOrder_early s (alike.still still) reads' (alike.now ▸ due)
    have skipped : countExpiry s count r.id v = .ok count u := by
      have tried : outcome (expireOrder s r.id) v = .ok (.ok false) u := by rw [outcome, run]
      exact bind_of_run tried
    rw [skipped]
    exact tried.trans ⟨rfl, idle⟩

theorem sweepOrders_outcomes {rows : List OrderRow} {os : List Order} (s : Settings.Attempts)
    (count : SweepCount) (still : w.Still) (reads : w.tables.Reads rows os)
    (alike : w.Alike S v) :
    EndsAlike (World.Alike S) (os.foldlM (sweepOrder s) count w)
      (countExpiries s count (rows.map (·.id)) v) := by
  induction rows generalizing os count w v with
  | nil =>
    cases reads.read
    exact ⟨rfl, alike⟩
  | cons r rows ih =>
    obtain ⟨o, os₂, rfl, reads₁, reads₂, other⟩ := reads.cons
    rw [List.map_cons, countExpiries_cons, List.foldlM_cons]
    refine endsAlike_bind (sweepOrder_outcome s count still reads₁ alike) ?_
    intro c w' v' left _ alike'
    obtain ⟨lead, ids, among, commits⟩ :=
      (sweepOrder_expires s count o w 0 still.1.alone).of_ok left
    refine ih c (lead.still still) (reads₂.touched (commits_touched commits) ?_) alike'
    intro r' here known
    have own : o.id = r.id := by simpa using reads₁.ids
    exact other r' here (by simpa [own] using among _ known)

theorem sweepOrders_due (s : Settings.Attempts) (os : List Order) (count : SweepCount)
    (still : w.Still) (alike : w.Alike S v) :
    EndsAlike (World.Alike S) (os.foldlM (sweepOrder s) count w)
      (countExpiries s count ((os.filter (·.isDue w.now)).map (·.id)) v) := by
  induction os generalizing count w v with
  | nil => exact ⟨rfl, alike⟩
  | cons o os ih =>
    have apart : countExpiries s count (((o :: os).filter (·.isDue w.now)).map (·.id)) =
        (if o.isDue w.now then countExpiry s count o.id else pure count) >>= fun count =>
          countExpiries s count ((os.filter (·.isDue w.now)).map (·.id)) := by
      cases due : o.isDue w.now with
      | true => simp only [List.filter_cons, due, if_true, List.map_cons, countExpiries_cons]
      | false => simp only [List.filter_cons, due, Bool.false_eq_true, if_false, pure_bind]
    rw [apart, List.foldlM_cons]
    refine endsAlike_bind (sweepOrder_still s count o still alike) ?_
    intro c w' v' left _ alike'
    obtain ⟨lead, _⟩ := (sweepOrder_expires s count o w 0 still.1.alone).of_ok left
    rw [← lead.now still]
    exact ih c (lead.still still) alike'

end Service
end Stockroom
