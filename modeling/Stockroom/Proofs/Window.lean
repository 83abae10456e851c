import Mathlib.Data.List.Perm.Subperm
import Mathlib.Data.List.Sort
import Stockroom.Proofs.Runs
import Stockroom.Proofs.StoredTime

namespace Stockroom

/- The smallest of some ids -/

/-- The smallest of the ids with a property, ascending, `limit` of them at most. -/
structure Smallest (belongs : Int → Prop) (limit : Nat) (ids : List Int) : Prop where
  ascending : ids.Pairwise (· < ·)
  belong : ∀ id ∈ ids, belongs id
  few : ids.length ≤ limit
  /-- Others are larger, and are left out for want of room. -/
  others : ∀ other, belongs other → other ∉ ids → ids.length = limit ∧ ∀ id ∈ ids, id < other

namespace Smallest

variable {belongs : Int → Prop} {limit : Nat} {ids ids' : List Int}

theorem subset (h : Smallest belongs limit ids) (h' : Smallest belongs limit ids') :
    ids ⊆ ids' := by
  intro id here
  by_contra missing
  obtain ⟨full, less⟩ := h'.others id (h.belong id here) missing
  -- All of the other ids are smaller, so they are among these, which makes these too many.
  have more : id :: ids' ⊆ ids := by
    refine List.cons_subset.mpr ⟨here, fun other there => ?_⟩
    by_contra left
    have above := (h.others other (h'.belong other there) left).2 id here
    have below := less other there
    omega
  have distinct : (id :: ids').Nodup := List.nodup_cons.mpr ⟨missing, h'.ascending.nodup⟩
  have longer := (distinct.subperm more).length_le
  have few := h.few
  rw [List.length_cons] at longer
  omega

theorem unique (h : Smallest belongs limit ids) (h' : Smallest belongs limit ids') : ids' = ids :=
  h'.ascending.eq_of_mem_iff h.ascending fun _ => ⟨(h'.subset h ·), (h.subset h' ·)⟩

end Smallest

theorem smallest_take {ids : List Int} (ascending : ids.Pairwise (· < ·)) (limit : Nat) :
    Smallest (· ∈ ids) limit (ids.take limit) where
  ascending := ascending.sublist (List.take_sublist _ _)
  belong _ := List.mem_of_mem_take
  few := List.length_take_le _ _
  others := by
    intro other member left
    rw [← List.take_append_drop limit ids] at member ascending
    have dropped := (List.mem_append.mp member).resolve_left left
    have long := List.length_pos_of_mem dropped
    rw [List.length_drop] at long
    refine ⟨by rw [List.length_take]; omega, fun id here => ?_⟩
    exact (List.pairwise_append.mp ascending).2.2 id here other dropped

theorem smallest_sorted {ids : List Int} (distinct : ids.Nodup) (limit : Nat) :
    Smallest (· ∈ ids) limit (ids.mergeSort.take limit) := by
  have sorted := List.pairwise_mergeSort' (· ≤ ·) ids
  have kept : ids.mergeSort.Nodup := (List.mergeSort_perm ids _).nodup_iff.mpr distinct
  have ascending : ids.mergeSort.Pairwise (· < ·) :=
    (sorted.and kept).imp fun ⟨most, other⟩ => Std.lt_of_le_of_ne most other
  simpa only [List.mem_mergeSort] using smallest_take ascending limit

/- The window -/

/-- In one of the states, and last touched within a window, its ends included. -/
def OrderRow.TouchedWithin (r : OrderRow) (lower upper : Moment) (statuses : List OrderStatus) :
    Prop :=
  r.status ∈ statuses ∧ lower ≤ r.touchedAt ∧ r.touchedAt ≤ upper

def Tables.HasWithin (t : Tables) (lower upper : Moment) (statuses : List OrderStatus)
    (id : Int) : Prop :=
  ∃ r ∈ t.orders, r.id = id ∧ r.TouchedWithin lower upper statuses

theorem idsTouchedWithin_smallest {t : Tables} (keyed : t.UniqueIds) (lower upper : Moment)
    (statuses : List OrderStatus) (limit : Nat) :
    Smallest (t.HasWithin lower upper statuses) limit
      (t.idsTouchedWithin lower upper statuses limit) := by
  unfold Tables.idsTouchedWithin
  dsimp only
  rw [if_neg (by omega), Int.toNat_natCast]
  generalize hits : t.orders.filter _ = rows
  have member (id : Int) : id ∈ rows.map (·.id) ↔ t.HasWithin lower upper statuses id := by
    rw [← hits, List.mem_map]
    apply exists_congr
    intro r
    simp only [List.mem_filter, Bool.and_eq_true, decide_eq_true_eq, Moment.toStored_le,
      List.contains_iff_mem, OrderRow.TouchedWithin]
    tauto
  have distinct : (rows.map (·.id)).Nodup := by
    rw [← hits]
    exact keyed.sublist (List.filter_sublist.map _)
  simpa only [member] using smallest_sorted distinct limit

namespace Service

variable {w v : World}

theorem idsTouchedWithin_ok (free : turn w = .ok () v) (lower upper : Moment)
    (statuses : List OrderStatus) {limit : Nat} (fits : limit < 2 ^ 63) :
    idsTouchedWithin lower upper statuses limit w =
      .ok (w.tables.idsTouchedWithin lower upper statuses limit) v := by
  have stored : fits64 limit = true := fits64_of_bounds (by omega) (by omega)
  refine query_ok.mpr ⟨free, by simp [stored], ?_⟩
  rw [turn_ok free]
  rfl

theorem idsTouchedWithin_large (free : turn w = .ok () v) (lower upper : Moment)
    (statuses : List OrderStatus) {limit : Nat} (large : 2 ^ 63 ≤ limit) :
    idsTouchedWithin lower upper statuses limit w = .error .beyond64 v := by
  have unfit : fits64 limit = false := by
    unfold fits64
    simp only [Bool.and_eq_false_iff, decide_eq_false_iff_not]
    omega
  exact query_unfit free (by simp [unfit]) _

end Service

/-- A statement that is not refused answers with the smallest ids of the orders that are in one of
the states and were last touched within the window, ascending and as many as the limit allows; no
other list is such. A limit that does not fit is a fault. The texts that are compared are those of
dates with a time of day, which all moments are, and they compare as the instants do. -/
theorem window_is_chronological {w v : World} (keyed : w.tables.UniqueIds)
    (free : Service.turn w = .ok () v) (lower upper : Moment) (statuses : List OrderStatus)
    (limit : Nat) :
    (limit < 2 ^ 63 →
      ∃ ids, Service.idsTouchedWithin lower upper statuses limit w = .ok ids v ∧
        ∀ ids', Smallest (w.tables.HasWithin lower upper statuses) limit ids' ↔ ids' = ids) ∧
    (2 ^ 63 ≤ limit →
      Service.idsTouchedWithin lower upper statuses limit w = .error .beyond64 v) ∧
    v.tables = w.tables ∧
    (∀ m : Moment, ∃ d : DateTime, d.moment = m) ∧
    ∀ a b : DateTime, a.moment.toStored = a.text ∧ (a.text ≤ b.text ↔ a.instant ≤ b.instant) := by
  refine ⟨fun fits => ?_, Service.idsTouchedWithin_large free lower upper statuses, ?_,
    fun m => ⟨m.dateTime, m.dateTime_moment⟩, fun a b => ⟨a.moment_toStored, DateTime.text_le⟩⟩
  · have found := idsTouchedWithin_smallest keyed lower upper statuses limit
    refine ⟨_, Service.idsTouchedWithin_ok free lower upper statuses fits, fun ids' => ?_⟩
    constructor
    · exact found.unique
    · rintro rfl
      exact found
  · rw [Service.turn_ok free]
    rfl

/-- Orders that do not stand by their ids. Within minutes 10 to 30 one was created as they begin,
one was paid as they end and one was created between; one was created too early, and one is
canceled. -/
def World.scattered : World :=
  { World.opening with tables := { orders := [
    ⟨7, "order-7", .pending, .zero, .minutes 40, .minutes 10, 0, none⟩,
    ⟨3, "order-3", .paid, .zero, .minutes 35, .minutes 5, 1, some (.minutes 30)⟩,
    ⟨5, "order-5", .pending, .zero, .minutes 39, .minutes 9, 0, none⟩,
    ⟨9, "order-9", .pending, .zero, .minutes 50, .minutes 20, 0, none⟩,
    ⟨1, "order-1", .canceled, .zero, .minutes 45, .minutes 15, 1, some (.minutes 20)⟩] } }

theorem scattered_found_by_id :
    let w := World.scattered
    w.tables.UniqueIds ∧ Service.turn w = .ok () w ∧
      Service.idsTouchedWithin (.minutes 10) (.minutes 30) [.pending, .paid] (2 : Nat) w =
        .ok [3, 7] w := by
  intro w
  have keyed : w.tables.UniqueIds := by
    unfold Tables.UniqueIds
    decide
  have free : Service.turn w = .ok () w := rfl
  have found : ∀ id ∈ [3, 7],
      w.tables.HasWithin (.minutes 10) (.minutes 30) [.pending, .paid] id := by
    unfold Tables.HasWithin OrderRow.TouchedWithin
    decide
  have left : ∀ r ∈ w.tables.orders,
      r.TouchedWithin (.minutes 10) (.minutes 30) [.pending, .paid] → r.id ∉ [3, 7] →
        ∀ id ∈ [3, 7], id < r.id := by
    unfold OrderRow.TouchedWithin
    decide
  have picked : Smallest (w.tables.HasWithin (.minutes 10) (.minutes 30) [.pending, .paid]) 2
      [3, 7] := by
    refine ⟨by decide, found, Nat.le_refl 2, ?_⟩
    rintro _ ⟨r, here, rfl, within⟩ missing
    exact ⟨rfl, left r here within missing⟩
  obtain ⟨ids, run, exactly⟩ := (window_is_chronological keyed free (.minutes 10) (.minutes 30)
    [.pending, .paid] 2).1 (by decide)
  obtain rfl := (exactly _).mp picked
  exact ⟨keyed, free, run⟩

/-- An hour after the start the tea order is within the window of the first 25 minutes, but with a
limit that does not fit it is not found. -/
theorem immense_limit_finds_nothing :
    let w := World.teaOrdered.facing .hourlySweep
    let limit : Nat := 2 ^ 63
    w.tables.UniqueIds ∧ Service.turn w = .ok () w ∧
      Smallest (w.tables.HasWithin (.minutes 0) (.minutes 25) [.pending]) limit [1] ∧
      ∀ ids v, Service.idsTouchedWithin (.minutes 0) (.minutes 25) [.pending] limit w ≠
        .ok ids v := by
  intro w limit
  have free : Service.turn w = .ok () w := rfl
  have found : ∃ r ∈ w.tables.orders, r.id = 1 ∧
      r.TouchedWithin (.minutes 0) (.minutes 25) [.pending] := by
    unfold OrderRow.TouchedWithin
    decide +kernel
  have only : ∀ r ∈ w.tables.orders, r.id = 1 := by decide +kernel
  refine ⟨teaOrdered_reached.sound.ids, free, ⟨by decide, ?_, by decide, ?_⟩, ?_⟩
  · intro id here
    rw [List.mem_singleton.mp here]
    exact found
  · rintro _ ⟨r, here, rfl, _⟩ missing
    exact absurd (List.mem_singleton.mpr (only r here)) missing
  · intro ids v ran
    have failed := Service.idsTouchedWithin_large free (.minutes 0) (.minutes 25) [.pending]
      (Nat.le_refl limit)
    rw [failed] at ran
    cases ran

end Stockroom
