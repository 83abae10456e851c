import Mathlib.Data.List.Dedup
import Mathlib.Data.List.Perm.Subperm
import Stockroom.Proofs.BinaryOrder
import Stockroom.Proofs.Writes
import Stockroom.Snapshots.Recent

/-! How long a snapshot is kept.
Entries stand in the order of their last use, and all that stand behind one have been used
since it was. So an entry goes for one of three reasons: it is evicted, its lifetime is over, or
as many other codes as there is room for were used since. -/
namespace Stockroom

namespace Recent

/- Histories -/

inductive Operation where
  | put (p : Product)
  | get (code : String)
  | evict (code : String)
  | clear

def perform (r : Recent) (time : Binary64) : Operation → Option Product × Recent
  | .put p => (none, r.put time p)
  | .get code => r.get time code
  | .evict code => (none, r.evict code)
  | .clear => (none, r.clear)

/-- Operations in the order in which they are made, each at the time that the clock shows. -/
abbrev History := List (Binary64 × Operation)

def run (r : Recent) (h : History) : Recent := h.foldl (fun r x => (r.perform x.1 x.2).2) r

/-- Whether an operation ends what stands under a code: by another product, or by evicting the
code or all of them. -/
def Operation.ends (code : String) : Operation → Bool
  | .put p => p.code = code
  | .get _ => false
  | .evict other => other = code
  | .clear => true

def Operation.puts (time : Binary64) : Operation → Option (Binary64 × Product)
  | .put p => some (time, p)
  | _ => none

/-- A product was put under its code at a time, and nothing has ended that. -/
def Stands (h : History) (code : String) (put : Binary64) (p : Product) : Prop :=
  ∃ before after, h = before ++ (put, .put p) :: after ∧ p.code = code ∧
    ∀ x ∈ after, x.2.ends code = false

def latest (h : History) (code : String) : Option (Binary64 × Product) :=
  h.foldl (fun last x => if x.2.ends code then x.2.puts x.1 else last) none

/-- The code that an operation uses: what it puts, or what it looks for and finds. -/
def used (r : Recent) (time : Binary64) : Operation → Option String
  | .put p => some p.code
  | .get code => (r.get time code).1.map fun _ => code
  | .evict _ => none
  | .clear => none

def uses (r : Recent) : History → List String
  | [] => []
  | x :: h => (r.perform x.1 x.2).2.uses h ++ (r.used x.1 x.2).toList

/-- The codes used after the last use of a code. -/
def since (code : String) (uses : List String) : List String := uses.takeWhile (· ≠ code)

theorem run_snoc (r : Recent) (h : History) (x : Binary64 × Operation) :
    r.run (h ++ [x]) = ((r.run h).perform x.1 x.2).2 := by
  simp [run]

theorem latest_snoc (h : History) (x : Binary64 × Operation) (code : String) :
    latest (h ++ [x]) code = if x.2.ends code then x.2.puts x.1 else latest h code := by
  simp [latest]

theorem puts_some {time put : Binary64} {operation : Operation} {p : Product} :
    operation.puts time = some (put, p) ↔ (time, operation) = (put, .put p) := by
  cases operation <;> simp [Operation.puts]

theorem stands_snoc {h : History} {x : Binary64 × Operation} {code : String} {put : Binary64}
    {p : Product} :
    Stands (h ++ [x]) code put p ↔
      x = (put, .put p) ∧ p.code = code ∨ Stands h code put p ∧ x.2.ends code = false := by
  constructor
  · rintro ⟨before, after, split, named, stays⟩
    rcases List.eq_nil_or_concat after with rfl | ⟨after, y, rfl⟩
    · exact .inl ⟨List.singleton_inj.mp (List.append_inj' split rfl).2, named⟩
    · rw [List.concat_eq_append] at split stays
      rw [← List.cons_append, ← List.append_assoc] at split
      obtain ⟨rfl, last⟩ := List.append_inj' split rfl
      obtain rfl := List.singleton_inj.mp last
      exact .inr ⟨⟨before, after, rfl, named, fun z here => stays z (by simp [here])⟩,
        stays x (by simp)⟩
  · rintro (⟨rfl, named⟩ | ⟨⟨before, after, rfl, named, stays⟩, stay⟩)
    · exact ⟨h, [], rfl, named, nofun⟩
    · refine ⟨before, after ++ [x], by simp, named, fun y here => ?_⟩
      rcases List.mem_append.mp here with old | new
      · exact stays y old
      · rw [List.mem_singleton.mp new]
        exact stay

theorem latest_some {h : History} {code : String} {put : Binary64} {p : Product} :
    latest h code = some (put, p) ↔ Stands h code put p := by
  induction h using List.reverseRecOn with
  | nil => simp [latest, Stands]
  | append_singleton h x ih =>
    rw [latest_snoc, stands_snoc]
    cases ends : x.2.ends code with
    | true =>
      have named : x = (put, .put p) → p.code = code := by
        rintro rfl
        exact of_decide_eq_true ends
      simp only [if_true, puts_some, Bool.true_eq_false, and_false, or_false]
      exact ⟨fun here => ⟨here, named here⟩, And.left⟩
    | false =>
      have other : ¬(x = (put, .put p) ∧ p.code = code) := by
        rintro ⟨rfl, named⟩
        simp [Operation.ends, named] at ends
      simp only [Bool.false_eq_true, if_false, ih, other, and_true, false_or]

theorem uses_snoc (r : Recent) (h : History) (x : Binary64 × Operation) :
    r.uses (h ++ [x]) = ((r.run h).used x.1 x.2).toList ++ r.uses h := by
  induction h generalizing r with
  | nil => simp [uses, run]
  | cons y h ih => simp [uses, ih, run]

theorem since_other {code other : String} (uses : List String) (differ : other ≠ code) :
    since code (other :: uses) = other :: since code uses := by
  simp [since, differ]

/- Entries in the order of their last use -/

def Ordered (uses : List String) (entries : List Entry) : Prop :=
  entries.Pairwise fun e later => later.product.code ∈ since e.product.code uses

theorem mem_without {code : String} {entries : List Entry} {e : Entry} :
    e ∈ without code entries ↔ e ∈ entries ∧ e.product.code ≠ code := by
  simp [without]

theorem without_sublist (code : String) (entries : List Entry) :
    (without code entries).Sublist entries := List.filter_sublist

theorem ordered_moved {uses : List String} {entries : List Entry} (ordered : Ordered uses entries)
    {e : Entry} {code : String} (named : e.product.code = code) :
    Ordered (code :: uses) (without code entries ++ [e]) := by
  have others := ordered.sublist (without_sublist code entries)
  refine List.pairwise_append.mpr ⟨others.imp_of_mem ?_, List.pairwise_singleton _ _, ?_⟩
  · intro a b here _ behind
    rw [since_other uses (mem_without.mp here).2.symm]
    exact List.mem_cons_of_mem _ behind
  · intro a here b new
    rw [List.mem_singleton.mp new, since_other uses (mem_without.mp here).2.symm, named]
    exact List.mem_cons_self

theorem distinct_moved {entries : List Entry} (distinct : (entries.map (·.product.code)).Nodup)
    {e : Entry} {code : String} (named : e.product.code = code) :
    ((without code entries ++ [e]).map (·.product.code)).Nodup := by
  refine nodup_append_fresh (distinct.sublist ((without_sublist code entries).map _)) ?_
  exact fun a here => named ▸ (mem_without.mp here).2

/-- The entries behind one are no more than the codes that were used since. -/
theorem behind_few {uses : List String} {entries : List Entry} (ordered : Ordered uses entries)
    (distinct : (entries.map (·.product.code)).Nodup) {n : Nat} {e : Entry}
    (front : e ∈ entries.take n) :
    entries.length - n ≤ (since e.product.code uses).dedup.length := by
  rw [Ordered, ← List.take_append_drop n entries] at ordered
  have used : (entries.drop n).map (·.product.code) ⊆ (since e.product.code uses).dedup := by
    intro code here
    obtain ⟨later, member, rfl⟩ := List.mem_map.mp here
    exact List.mem_dedup.mpr ((List.pairwise_append.mp ordered).2.2 e front later member)
  have others := distinct.sublist ((List.drop_sublist n entries).map _)
  have few := (List.subperm_of_subset others used).length_le
  rwa [List.length_map, List.length_drop] at few

/- What is kept and why -/

/-- Why a snapshot that was put at a time may be gone: as many other codes as there is room for
were used since its last use, or its lifetime was over at one of the operations. -/
def Passed (r : Recent) (h : History) (uses : List String) (code : String) (put : Binary64) :
    Prop :=
  r.capacity ≤ (since code uses).dedup.length ∨ ∃ x ∈ h, (put.add r.ttl).atMost x.1 = true

theorem Passed.next {r : Recent} {h : History} {uses : List String} {code : String}
    {put : Binary64} (passed : r.Passed h uses code put) (x : Binary64 × Operation) :
    r.Passed (h ++ [x]) uses code put :=
  passed.imp_right fun ⟨y, member, late⟩ => ⟨y, List.mem_append_left _ member, late⟩

theorem Passed.use {r : Recent} {h : History} {uses : List String} {code other : String}
    {put : Binary64} (passed : r.Passed h uses code put) (differ : other ≠ code) :
    r.Passed h (other :: uses) code put := by
  refine passed.imp_left fun full => ?_
  have more : (since code uses).dedup ⊆ (since code (other :: uses)).dedup := by
    intro c here
    rw [since_other uses differ, List.mem_dedup]
    exact List.mem_cons_of_mem _ (List.mem_dedup.mp here)
  exact full.trans (List.subperm_of_subset (List.nodup_dedup _) more).length_le

/-- The entries are what was put last and not removed since, in the order of their last use,
and none is missing that has not passed. -/
structure Recalls (r : Recent) (h : History) (uses : List String) : Prop where
  distinct : (r.entries.map (·.product.code)).Nodup
  lately : ∀ e ∈ r.entries, ∃ put, latest h e.product.code = some (put, e.product) ∧
    e.lapses = put.add r.ttl
  ordered : Ordered uses r.entries
  present : ∀ code put p, latest h code = some (put, p) →
    (∃ e ∈ r.entries, e.product.code = code) ∨ r.Passed h uses code put

namespace Recalls

variable {r : Recent} {h : History} {uses : List String} {x : Binary64 × Operation}

theorem start (empty : r.entries = []) : r.Recalls [] [] := by
  constructor <;> simp [empty, latest, Ordered]

theorem stay (recalls : r.Recalls h uses) (same : ∀ code, latest (h ++ [x]) code = latest h code) :
    r.Recalls (h ++ [x]) uses where
  distinct := recalls.distinct
  lately e here := by
    rw [same]
    exact recalls.lately e here
  ordered := recalls.ordered
  present code put p last := by
    rw [same] at last
    exact (recalls.present code put p last).imp_right fun gone => gone.next x

theorem remove (recalls : r.Recalls h uses) {code : String}
    (others : ∀ other ≠ code, latest (h ++ [x]) other = latest h other)
    (passed : ∀ put p, latest (h ++ [x]) code = some (put, p) → r.Passed (h ++ [x]) uses code put) :
    Recalls { r with entries := without code r.entries } (h ++ [x]) uses where
  distinct := recalls.distinct.sublist ((without_sublist code r.entries).map _)
  lately e here := by
    obtain ⟨member, differ⟩ := mem_without.mp here
    rw [others _ differ]
    exact recalls.lately e member
  ordered := recalls.ordered.sublist (without_sublist code r.entries)
  present other put p last := by
    by_cases same : other = code
    · subst same
      exact .inr (passed put p last)
    · rw [others other same] at last
      rcases recalls.present other put p last with ⟨e, member, named⟩ | gone
      · exact .inl ⟨e, mem_without.mpr ⟨member, named ▸ same⟩, named⟩
      · exact .inr (gone.next x)

theorem move (recalls : r.Recalls h uses) {e : Entry}
    (others : ∀ other ≠ e.product.code, latest (h ++ [x]) other = latest h other)
    (last : ∃ put, latest (h ++ [x]) e.product.code = some (put, e.product) ∧
      e.lapses = put.add r.ttl) :
    Recalls { r with entries := without e.product.code r.entries ++ [e] } (h ++ [x])
      (e.product.code :: uses) where
  distinct := distinct_moved recalls.distinct rfl
  lately a here := by
    rcases List.mem_append.mp here with old | new
    · obtain ⟨member, differ⟩ := mem_without.mp old
      rw [others _ differ]
      exact recalls.lately a member
    · rw [List.mem_singleton.mp new]
      exact last
  ordered := ordered_moved recalls.ordered rfl
  present code put p found := by
    by_cases same : code = e.product.code
    · exact .inl ⟨e, by simp, same.symm⟩
    · rw [others code same] at found
      rcases recalls.present code put p found with ⟨a, member, named⟩ | gone
      · exact .inl ⟨a, List.mem_append_left _ (mem_without.mpr ⟨member, named ▸ same⟩), named⟩
      · exact .inr ((gone.next x).use (Ne.symm same))

theorem shorten (recalls : r.Recalls h uses) :
    Recalls { r with entries := r.entries.drop (r.entries.length - r.capacity) } h uses where
  distinct := recalls.distinct.sublist ((List.drop_sublist _ _).map _)
  lately e here := recalls.lately e (List.mem_of_mem_drop here)
  ordered := recalls.ordered.sublist (List.drop_sublist _ _)
  present code put p last := by
    rcases recalls.present code put p last with ⟨e, member, rfl⟩ | gone
    swap
    · exact .inr gone
    rw [← List.take_append_drop (r.entries.length - r.capacity) r.entries] at member
    rcases List.mem_append.mp member with front | kept
    swap
    · exact .inl ⟨e, kept, rfl⟩
    have behind := behind_few recalls.ordered recalls.distinct front
    have some_go : 0 < r.entries.length - r.capacity := by
      refine Nat.pos_of_ne_zero fun c_zero => ?_
      simp [c_zero] at front
    have full : r.capacity ≤ (since e.product.code uses).dedup.length := by omega
    exact .inr (.inl full)

end Recalls

theorem find?_some {code : String} {entries : List Entry} {e : Entry}
    (found : find? code entries = some e) : e ∈ entries ∧ e.product.code = code :=
  ⟨List.mem_of_find?_eq_some found, by simpa using List.find?_some found⟩

theorem length_without {code : String} {entries : List Entry} {e : Entry}
    (found : find? code entries = some e) : (without code entries).length < entries.length := by
  obtain ⟨member, named⟩ := find?_some found
  refine List.length_filter_lt_length_iff_exists.mpr ⟨e, member, ?_⟩
  simp [named]

theorem perform_few {r : Recent} (few : r.entries.length ≤ r.capacity) (time : Binary64)
    (operation : Operation) :
    (r.perform time operation).2.ttl = r.ttl ∧
      (r.perform time operation).2.capacity = r.capacity ∧
      (r.perform time operation).2.entries.length ≤ r.capacity := by
  cases operation with
  | put p =>
    simp only [perform, put]
    split
    · exact ⟨rfl, rfl, few⟩
    · refine ⟨rfl, rfl, ?_⟩
      rw [List.length_drop]
      omega
  | get code =>
    simp only [perform, get]
    cases found : find? code r.entries with
    | none => exact ⟨rfl, rfl, few⟩
    | some e =>
      have less := length_without found
      dsimp only
      split
      · exact ⟨rfl, rfl, by dsimp only; omega⟩
      · exact ⟨rfl, rfl, by simp only [List.length_append, List.length_singleton]; omega⟩
  | evict code => exact ⟨rfl, rfl, (without_sublist code r.entries).length_le.trans few⟩
  | clear => exact ⟨rfl, rfl, Nat.zero_le _⟩

theorem Recalls.perform {r : Recent} {h : History} {uses : List String} (recalls : r.Recalls h uses)
    (living : r.ttl.atMost .zero = false) (x : Binary64 × Operation) :
    (r.perform x.1 x.2).2.Recalls (h ++ [x]) ((r.used x.1 x.2).toList ++ uses) := by
  obtain ⟨time, operation⟩ := x
  cases operation with
  | put p =>
    simp only [Recent.perform, Recent.put, living]
    refine (recalls.move (e := ⟨p, time.add r.ttl⟩) ?_ ?_).shorten
    · intro other differ
      rw [latest_snoc]
      exact if_neg (by simpa [Operation.ends] using Ne.symm differ)
    · rw [latest_snoc]
      exact ⟨time, if_pos (decide_eq_true rfl), rfl⟩
  | get code =>
    have same (other) : latest (h ++ [(time, .get code)]) other = latest h other := by
      rw [latest_snoc]
      exact if_neg Bool.false_ne_true
    simp only [Recent.perform, used, Recent.get]
    cases found : find? code r.entries with
    | none => exact recalls.stay same
    | some e =>
      obtain ⟨member, rfl⟩ := find?_some found
      obtain ⟨put, last, lapses⟩ := recalls.lately e member
      dsimp only
      split
      case isTrue late =>
        refine recalls.remove (fun other _ => same other) fun t p again => .inr ?_
        rw [same, last] at again
        cases again
        exact ⟨(time, .get e.product.code), by simp, lapses ▸ late⟩
      case isFalse =>
        exact recalls.move (fun other _ => same other) ⟨put, by rw [same, last], lapses⟩
  | evict code =>
    refine recalls.remove ?_ ?_
    · intro other differ
      rw [latest_snoc]
      exact if_neg (by simpa [Operation.ends] using Ne.symm differ)
    · intro put p last
      rw [latest_snoc] at last
      simp [Operation.ends, Operation.puts] at last
  | clear =>
    constructor <;>
      simp [Recent.perform, Recent.clear, latest_snoc, Ordered, Operation.ends, Operation.puts]

theorem run_few (ttl : Binary64) (capacity : Nat) (h : History) :
    (run { ttl, capacity } h).ttl = ttl ∧ (run { ttl, capacity } h).capacity = capacity ∧
      (run { ttl, capacity } h).entries.length ≤ capacity := by
  induction h using List.reverseRecOn with
  | nil => exact ⟨rfl, rfl, Nat.zero_le _⟩
  | append_singleton h x ih =>
    obtain ⟨lifetime, room, few⟩ := ih
    have step := perform_few (few.trans room.ge) x.1 x.2
    rwa [← run_snoc, lifetime, room] at step

theorem run_recalls {ttl : Binary64} (positive : Binary64.zero.below ttl = true) (capacity : Nat)
    (h : History) :
    (run { ttl, capacity } h).Recalls h (uses { ttl, capacity } h) := by
  have living := Binary64.not_atMost_of_below positive
  induction h using List.reverseRecOn with
  | nil => exact .start rfl
  | append_singleton h x ih =>
    rw [run_snoc, uses_snoc]
    exact ih.perform ((run_few ttl capacity h).1.symm ▸ living) x

theorem Recalls.find_entry {r : Recent} {h : History} {uses : List String}
    (recalls : r.Recalls h uses) {e : Entry} (here : e ∈ r.entries) :
    find? e.product.code r.entries = some e := by
  cases found : find? e.product.code r.entries with
  | none => simpa using List.find?_eq_none.mp found e here
  | some other =>
    obtain ⟨member, named⟩ := find?_some found
    rw [List.inj_on_of_nodup_map recalls.distinct member here named]

theorem get_some {r : Recent} {time : Binary64} {code : String} {p : Product} :
    (r.get time code).1 = some p ↔
      ∃ e, find? code r.entries = some e ∧ e.product = p ∧ ¬e.lapses.atMost time = true := by
  unfold get
  cases find? code r.entries with
  | none => simp
  | some e =>
    dsimp only
    split <;> simp_all

/-- After any operations there are no more snapshots than there is room for, each found under its
own product's code. A look, not earlier than any of the operations, finds only what stands under
the code and has not lapsed; and it finds that, unless as many other codes as there is room for
were used since the last use of the code. -/
theorem snapshots_kept_while_used {ttl : Binary64} (positive : Binary64.zero.below ttl = true)
    (capacity : Nat) (h : History) (numbers : ∀ x ∈ h, (x.1.add ttl).isNaN = false) :
    let r := run { ttl, capacity } h
    r.entries.length ≤ capacity ∧ (r.entries.map (·.product.code)).Nodup ∧
      (∀ e ∈ r.entries, find? e.product.code r.entries = some e) ∧
      ∀ time, (∀ x ∈ h, x.1.atMost time = true) → time.isNaN = false → ∀ code p,
        ((r.get time code).1 = some p →
          ∃ put, Stands h code put p ∧ time.below (put.add ttl) = true) ∧
        ∀ put, Stands h code put p → time.below (put.add ttl) = true →
          (since code (uses { ttl, capacity } h)).dedup.length < capacity →
          (r.get time code).1 = some p := by
  intro r
  obtain ⟨lifetime, room, few⟩ := run_few ttl capacity h
  have recalls := run_recalls positive capacity h
  refine ⟨few, recalls.distinct, fun e => recalls.find_entry, fun time later number code p =>
    ⟨?_, ?_⟩⟩
  · intro looked
    obtain ⟨e, found, rfl, fresh⟩ := get_some.mp looked
    obtain ⟨member, rfl⟩ := find?_some found
    obtain ⟨put, last, lapses⟩ := recalls.lately e member
    have stands := latest_some.mp last
    obtain ⟨before, after, split, -⟩ := id stands
    have end_number := numbers (put, .put e.product) (by simp [split])
    rw [lapses, lifetime] at fresh
    exact ⟨put, stands, Binary64.below_of_not_atMost end_number number fresh⟩
  · intro put stands fresh lately
    have last := latest_some.mpr stands
    rcases recalls.present code put p last with ⟨e, member, rfl⟩ | full | ⟨x, before, late⟩
    · obtain ⟨_, again, lapses⟩ := recalls.lately e member
      cases last.symm.trans again
      refine get_some.mpr ⟨e, recalls.find_entry member, rfl, fun late => ?_⟩
      rw [lapses, lifetime] at late
      rw [Binary64.not_below_of_atMost late] at fresh
      cases fresh
    · omega
    · rw [lifetime] at late
      rw [Binary64.not_below_of_atMost (Binary64.atMost_trans late (later x before))] at fresh
      cases fresh

/-- Room for two: the look at tea keeps it when jam comes, and bread goes. Tea is not found again
ten seconds after it was put. -/
theorem tea_looked_at_stays :
    let tea : Product := ⟨"tea", "Tea", 5, .finite false 250 (-2), false, 0⟩
    let h : History := [(.ofInt 0, .put tea), (.ofInt 1, .put { tea with code := "bread" }),
      (.ofInt 2, .get "tea"), (.ofInt 3, .put { tea with code := "jam" })]
    let r := run ⟨.ofInt 10, 2, []⟩ h
    r.entries.map (·.product.code) = ["tea", "jam"] ∧ (r.get (.ofInt 9) "tea").1 = some tea ∧
      ∀ p, (r.get (.ofInt 10) "tea").1 ≠ some p := by
  intro tea h r
  have positive : Binary64.zero.below (.ofInt 10) = true := by decide +kernel
  obtain ⟨-, -, -, looks⟩ := snapshots_kept_while_used positive 2 h (by decide +kernel)
  have stands : Stands h "tea" (.ofInt 0) tea := ⟨[], _, rfl, rfl, by decide +kernel⟩
  refine ⟨by decide +kernel, ?_, fun p found => ?_⟩
  · exact (looks (.ofInt 9) (by decide +kernel) (by decide +kernel) "tea" tea).2 (.ofInt 0) stands
      (by decide +kernel) (by decide +kernel)
  · obtain ⟨put, again, fresh⟩ :=
      (looks (.ofInt 10) (by decide +kernel) (by decide +kernel) "tea" p).1 found
    cases (latest_some.mpr stands).symm.trans (latest_some.mpr again)
    revert fresh
    decide +kernel

end Recent
end Stockroom
