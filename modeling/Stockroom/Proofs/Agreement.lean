import Stockroom.Proofs.Digits
import Stockroom.Proofs.Documents
import Stockroom.Proofs.Recency
import Stockroom.Snapshots.Remote
import Stockroom.Store.Statements

/-! Snapshots in this process and in a remote dictionary.
A snapshot that is written as text reads back as the same product. So as long as no lifetime is
over and there is room for all, a look finds the same in both places. -/
namespace Stockroom

/- Products as text -/

theorem digitCount_fits64 {n : Int} (fits : Service.fits64 n = true) :
    digitCount n.natAbs ≤ Text.digitLimit := by
  simp only [Service.fits64, Bool.and_eq_true, decide_eq_true_eq] at fits
  have few : digitCount n.natAbs ≤ 19 := by
    rw [digitCount_le_iff (by decide)]
    omega
  exact few.trans (by decide)

namespace Field

theorem decimal_toText {d : Decimal} (range : d.InRange) :
    decimal .plain (.text d.toText) = .accepted d := by
  have finite : d.isFinite = true := by
    cases d <;> first | rfl | cases range
  simp only [decimal, Decimal.read_toText range, Field.finite, finite, if_true]

theorem required_found {α : Type} {members : List (String × Json)} {name : String} {x : Json}
    {read : Reader α} {a : α} (found : Json.lookup name members = some x)
    (accepts : read x = .accepted a) : required members name read = .accepted a := by
  rw [required, found]
  dsimp only
  rw [accepts]
  rfl

end Field

namespace Product

/-- A product whose price and counts have the sizes that such data can have. -/
structure Writable (p : Product) : Prop where
  price : p.price.InRange
  stock : Service.fits64 p.stock = true
  version : Service.fits64 p.version = true

theorem toJson_plain {p : Product} (writable : p.Writable) : Json.Plain 200 p.toJson := by
  have stock := digitCount_fits64 writable.stock
  have version := digitCount_fits64 writable.version
  apply Json.Plain.object
  intro m here
  simp only [List.mem_cons, List.not_mem_nil, or_false] at here
  rcases here with rfl | rfl | rfl | rfl | rfl | rfl
  · exact .text p.code
  · exact .text p.name
  · exact .integer stock
  · exact .text p.price.toText
  · exact .bool p.archived
  · exact .integer version

theorem ofMembers_toJson {p : Product} (range : p.price.InRange) :
    ofMembers [("code", .text p.code), ("name", .text p.name), ("stock_quantity", .integer p.stock),
      ("price_per_unit", .text p.price.toText), ("archived", .bool p.archived),
      ("version", .integer p.version)] = .accepted p := by
  rw [ofMembers, Field.required_found rfl (Field.decimal_toText range)]
  rfl

/-- Reading back what was written gives the same product, its price in the same form. -/
theorem ofWritten_written {p : Product} (writable : p.Writable) :
    ofWritten p.written = .accepted p := by
  have read := Json.read_compact snapshotDialect (toJson_plain writable)
  simp only [ofWritten, written, read]
  exact ofMembers_toJson writable.price

end Product

/- Entries with names -/

section

variable {α β : Type} [DecidableEq β] (name : α → β)

theorem find?_others (k k' : β) (entries : List α) :
    (entries.filter fun a => name a ≠ k).find? (fun a => name a = k') =
      if k = k' then none else entries.find? fun a => name a = k' := by
  rw [List.find?_filter]
  split
  case isTrue same =>
    subst same
    simp
  case isFalse differ =>
    congr 1
    funext a
    by_cases here : name a = k' <;> simp [here, Ne.symm differ]

theorem find?_last (a : α) (k : β) (entries : List α) :
    ((entries.filter fun b => name b ≠ name a) ++ [a]).find? (fun b => name b = k) =
      if name a = k then some a else entries.find? fun b => name b = k := by
  rw [List.find?_append, find?_others]
  split
  case isTrue same => simp [same]
  case isFalse differ => simp [differ]

end

/- The remote dictionary -/

namespace Remote

open Recent (Operation History)

def perform (r : Remote) : Operation → Remote
  | .put p => r.put p
  | .get _ => r
  | .evict code => r.evict code
  | .clear => r.clear

def run (r : Remote) (h : History) : Remote := h.foldl (fun r x => r.perform x.2) r

def owned (k : String) : Bool := keyStart.toList.isPrefixOf k.toList

def foreign (r : Remote) : List Entry := r.entries.filter fun e => !owned e.key

def entry (p : Product) : Entry := ⟨key p.code, p.written, true⟩

theorem run_snoc (r : Remote) (h : History) (x : Binary64 × Operation) :
    r.run (h ++ [x]) = (r.run h).perform x.2 := by
  simp [run]

theorem owned_key (code : String) : owned (key code) = true := by
  simp [owned, key]

theorem key_inj {code other : String} : key code = key other ↔ code = other := by
  simp [key, ← String.toList_inj]

theorem foreign_without (code : String) (entries : List Entry) :
    (without (key code) entries).filter (fun e => !owned e.key) =
      entries.filter fun e => !owned e.key := by
  rw [without, List.filter_filter]
  apply List.filter_congr
  intro e _
  cases other : owned e.key with
  | true => simp
  | false =>
    have differ : e.key ≠ key code := by
      intro same
      simp [same, owned_key] at other
    simp [differ]

theorem perform_foreign (r : Remote) (operation : Operation) :
    (r.perform operation).foreign = r.foreign := by
  cases operation with
  | put p =>
    simp only [perform, put]
    split
    · rfl
    · simp [foreign, foreign_without, owned_key]
  | get code => rfl
  | evict code => exact foreign_without code r.entries
  | clear => simp [perform, clear, foreign, owned]

theorem run_foreign (r : Remote) (h : History) : (r.run h).foreign = r.foreign := by
  induction h using List.reverseRecOn with
  | nil => rfl
  | append_singleton h x ih => rw [run_snoc, perform_foreign, ih]

theorem perform_ttl (r : Remote) (operation : Operation) : (r.perform operation).ttl = r.ttl := by
  cases operation with
  | put p =>
    simp only [perform, put]
    split <;> rfl
  | _ => rfl

theorem run_ttl (r : Remote) (h : History) : (r.run h).ttl = r.ttl := by
  induction h using List.reverseRecOn with
  | nil => rfl
  | append_singleton h x ih => rw [run_snoc, perform_ttl, ih]

theorem clear_foreign (r : Remote) : ∀ e ∈ r.clear.entries, owned e.key = false := by
  intro e here
  simpa [clear, owned] using (List.mem_filter.mp here).2

theorem find?_evict (r : Remote) (other code : String) :
    (r.evict other).find? (key code) = if other = code then none else r.find? (key code) := by
  have others := find?_others Entry.key (key other) (key code) r.entries
  simp only [key_inj] at others
  exact others

theorem find?_put {r : Remote} (living : r.ttl.atMost .zero = false) (p : Product) (code : String) :
    (r.put p).find? (key code) = if p.code = code then some (entry p) else r.find? (key code) := by
  have last := find?_last Entry.key (entry p) (key code) r.entries
  simp only [entry, key_inj] at last
  simp only [put, living]
  exact last

theorem find?_foreign {r : Remote} (foreign : ∀ e ∈ r.entries, owned e.key = false)
    (code : String) : r.find? (key code) = none := by
  apply List.find?_eq_none.mpr
  intro e here same
  have other := foreign e here
  rw [of_decide_eq_true same, owned_key] at other
  cases other

end Remote

/- Both places -/

open Recent (History)

/-- The remote dictionary holds the texts of the snapshots kept here. -/
structure Mirrored (codes : List String) (remote : Remote) (r : Recent) : Prop where
  same : ∀ code, remote.find? (Remote.key code) =
    (Recent.find? code r.entries).map fun e => Remote.entry e.product
  writable : ∀ e ∈ r.entries, e.product.Writable
  distinct : (r.entries.map (·.product.code)).Nodup
  listed : ∀ e ∈ r.entries, e.product.code ∈ codes

namespace Mirrored

variable {codes : List String} {remote : Remote} {r : Recent} {time : Binary64}

theorem get_eq (mirrored : Mirrored codes remote r) (code : String)
    (lives : ∀ e ∈ r.entries, e.lapses.atMost time = false) :
    remote.get code = .accepted (r.get time code).1 := by
  unfold Remote.get Recent.get
  rw [mirrored.same code]
  cases found : Recent.find? code r.entries with
  | none => rfl
  | some e =>
    have member := (Recent.find?_some found).1
    have read := Product.ofWritten_written (mirrored.writable e member)
    simp [Remote.entry, read, lives e member, Checked.map]

theorem move (mirrored : Mirrored codes remote r) (e : Recent.Entry)
    (writable : e.product.Writable) (listed : e.product.code ∈ codes) {remote' : Remote}
    (there : ∀ code, remote'.find? (Remote.key code) =
      if e.product.code = code then some (Remote.entry e.product)
      else remote.find? (Remote.key code)) :
    Mirrored codes remote'
      { r with entries := Recent.without e.product.code r.entries ++ [e] } where
  same code := by
    have here := find?_last (fun a : Recent.Entry => a.product.code) e code r.entries
    rw [there, mirrored.same]
    refine Eq.trans ?_ (congrArg _ here.symm)
    split <;> rfl
  writable a member := by
    rcases List.mem_append.mp member with old | new
    · exact mirrored.writable a (Recent.mem_without.mp old).1
    · rwa [List.mem_singleton.mp new]
  distinct := Recent.distinct_moved mirrored.distinct rfl
  listed a member := by
    rcases List.mem_append.mp member with old | new
    · exact mirrored.listed a (Recent.mem_without.mp old).1
    · rwa [List.mem_singleton.mp new]

theorem get (mirrored : Mirrored codes remote r) (code : String)
    (lives : ∀ e ∈ r.entries, e.lapses.atMost time = false) :
    Mirrored codes remote (r.get time code).2 := by
  unfold Recent.get
  cases found : Recent.find? code r.entries with
  | none => exact mirrored
  | some e =>
    obtain ⟨member, rfl⟩ := Recent.find?_some found
    simp only [lives e member]
    refine mirrored.move e (mirrored.writable e member) (mirrored.listed e member) fun code => ?_
    split
    case isTrue same =>
      subst same
      rw [mirrored.same, found]
      rfl
    case isFalse => rfl

theorem few (mirrored : Mirrored codes remote r) : r.entries.length ≤ codes.dedup.length := by
  have listed : r.entries.map (·.product.code) ⊆ codes.dedup := by
    intro code here
    obtain ⟨e, member, rfl⟩ := List.mem_map.mp here
    exact List.mem_dedup.mpr (mirrored.listed e member)
  simpa using (List.subperm_of_subset mirrored.distinct listed).length_le

theorem put (mirrored : Mirrored codes remote r) (here : r.ttl.atMost .zero = false)
    (there : remote.ttl.atMost .zero = false) (room : codes.dedup.length ≤ r.capacity)
    {p : Product} (writable : p.Writable) (listed : p.code ∈ codes) :
    Mirrored codes (remote.put p) (r.put time p) := by
  have moved : Mirrored codes (remote.put p)
      { r with entries := Recent.without p.code r.entries ++ [⟨p, time.add r.ttl⟩] } :=
    mirrored.move ⟨p, time.add r.ttl⟩ writable listed (Remote.find?_put there p)
  have no_excess := Nat.sub_eq_zero_of_le (moved.few.trans room)
  dsimp only at no_excess
  simp only [Recent.put, here, Bool.false_eq_true, if_false]
  rwa [no_excess, List.drop_zero]

theorem evict (mirrored : Mirrored codes remote r) (code : String) :
    Mirrored codes (remote.evict code) (r.evict code) where
  same other := by
    have here := find?_others (fun a : Recent.Entry => a.product.code) code other r.entries
    rw [Remote.find?_evict, mirrored.same]
    refine Eq.trans ?_ (congrArg _ here.symm)
    split <;> rfl
  writable a member := mirrored.writable a (Recent.mem_without.mp member).1
  distinct := mirrored.distinct.sublist ((Recent.without_sublist code r.entries).map _)
  listed a member := mirrored.listed a (Recent.mem_without.mp member).1

theorem clear (codes : List String) (remote : Remote) (r : Recent) :
    Mirrored codes remote.clear r.clear where
  same code := Remote.find?_foreign remote.clear_foreign code
  writable := nofun
  distinct := List.nodup_nil
  listed := nofun

theorem start (codes : List String) (foreign : ∀ e ∈ remote.entries, Remote.owned e.key = false)
    (empty : r.entries = []) : Mirrored codes remote r where
  same code := by
    rw [empty, Remote.find?_foreign foreign]
    rfl
  writable := by simp [empty]
  distinct := by simp [empty]
  listed := by simp [empty]

theorem perform (mirrored : Mirrored codes remote r) (here : r.ttl.atMost .zero = false)
    (there : remote.ttl.atMost .zero = false) (room : codes.dedup.length ≤ r.capacity)
    (lives : ∀ e ∈ r.entries, e.lapses.atMost time = false) {operation : Recent.Operation}
    (puts : ∀ p, operation = .put p → p.Writable ∧ p.code ∈ codes) :
    Mirrored codes (remote.perform operation) (r.perform time operation).2 := by
  cases operation with
  | put p =>
    obtain ⟨writable, listed⟩ := puts p rfl
    exact mirrored.put here there room writable listed
  | get code => exact mirrored.get code lives
  | evict code => exact mirrored.evict code
  | clear => exact clear codes remote r

end Mirrored

namespace Recent

/-- No operation comes when the lifetime of an entry is over. -/
def Lives (r : Recent) : History → Prop
  | [] => True
  | x :: h => (∀ e ∈ r.entries, e.lapses.atMost x.1 = false) ∧ (r.perform x.1 x.2).2.Lives h

instance Lives.decidable : (r : Recent) → (h : History) → Decidable (r.Lives h)
  | _, [] => .isTrue trivial
  | r, x :: h =>
    have := decidable (r.perform x.1 x.2).2 h
    inferInstanceAs (Decidable (_ ∧ _))

theorem lives_append (r : Recent) (h later : History) :
    r.Lives (h ++ later) ↔ r.Lives h ∧ (r.run h).Lives later := by
  induction h generalizing r with
  | nil => simp [Lives, run]
  | cons x h ih => simp [Lives, ih, run, and_assoc]

def History.codes (h : History) : List String :=
  h.filterMap fun x => (x.2.puts x.1).map (·.2.code)

end Recent

theorem run_mirrored {ttl : Binary64} {capacity : Nat} {start : Remote} {codes : List String}
    (here : Binary64.zero.below ttl = true) (there : Binary64.zero.below start.ttl = true)
    (foreign : ∀ e ∈ start.entries, Remote.owned e.key = false)
    (room : codes.dedup.length ≤ capacity) (h : History)
    (puts : ∀ x ∈ h, ∀ p, x.2 = .put p → p.Writable ∧ p.code ∈ codes)
    (lives : Recent.Lives { ttl, capacity } h) :
    Mirrored codes (start.run h) (Recent.run { ttl, capacity } h) := by
  induction h using List.reverseRecOn with
  | nil => exact .start codes foreign rfl
  | append_singleton h x ih =>
    obtain ⟨before, now, -⟩ := (Recent.lives_append _ h [x]).mp lives
    have earlier := ih (fun y member => puts y (List.mem_append_left _ member)) before
    obtain ⟨lifetime, capacious, -⟩ := Recent.run_few ttl capacity h
    rw [Remote.run_snoc, Recent.run_snoc]
    apply earlier.perform
    · rw [lifetime]
      exact Binary64.not_atMost_of_below here
    · rw [Remote.run_ttl]
      exact Binary64.not_atMost_of_below there
    · rwa [capacious]
    · exact now
    · exact puts x (by simp)

/-- Reading back what was written gives the same product. Whatever is done with snapshots, the
keys of other owners stay as they are, and after a clear no key is left but theirs. From a
dictionary with no other keys on, every look finds the same in both places, as long as no lifetime
is over and there is room for all codes. -/
theorem places_agree (start : Remote) (h : History) :
    (∀ p : Product, p.Writable → Product.ofWritten p.written = .accepted p) ∧
    (start.run h).foreign = start.foreign ∧
    (∀ e ∈ (start.run h).clear.entries, Remote.owned e.key = false) ∧
    ∀ (ttl : Binary64) (capacity : Nat),
      Binary64.zero.below ttl = true → Binary64.zero.below start.ttl = true →
      (∀ e ∈ start.entries, Remote.owned e.key = false) →
      (∀ x ∈ h, ∀ p, x.2 = .put p → p.Writable) →
      Recent.Lives { ttl, capacity } h → h.codes.dedup.length ≤ capacity →
      ∀ before time code after, h = before ++ (time, .get code) :: after →
        (start.run before).get code =
          .accepted ((Recent.run { ttl, capacity } before).get time code).1 := by
  refine ⟨fun p => Product.ofWritten_written, start.run_foreign h, (start.run h).clear_foreign, ?_⟩
  intro ttl capacity here there foreign writable lives room before time code after split
  have puts : ∀ x ∈ before, ∀ p, x.2 = .put p → p.Writable ∧ p.code ∈ h.codes := by
    rintro ⟨time, _⟩ member p rfl
    have listed : (time, Recent.Operation.put p) ∈ h := by simp [split, member]
    exact ⟨writable _ listed p rfl, List.mem_filterMap.mpr ⟨_, listed, rfl⟩⟩
  obtain ⟨earlier, now, -⟩ := (Recent.lives_append _ before _).mp (split ▸ lives)
  have mirrored := run_mirrored here there foreign room before puts earlier
  exact mirrored.get_eq code now

/-- A negative zero with seven places is found as it was put, under a code with a quote, a
backslash and a line end, beside the key of another owner. -/
theorem odd_jam_found_in_both_places :
    let jam : Product := ⟨"jäm\"\\\n", "Jam", -1, .finite true 0 (-7), true, 3⟩
    let start : Remote := ⟨.ofInt 60, [⟨"sessions", "2", false⟩], false⟩
    let h : History := [(.ofInt 0, .put jam), (.ofInt 1, .get jam.code), (.ofInt 2, .clear)]
    (start.run [(.ofInt 0, .put jam)]).get jam.code = .accepted (some jam) ∧
      (start.run h).foreign = [⟨"sessions", "2", false⟩] := by
  intro jam start h
  obtain ⟨-, others, -, looks⟩ := places_agree start h
  have writable : jam.Writable := ⟨by decide, by decide, by decide⟩
  have all : ∀ x ∈ h, ∀ p, x.2 = .put p → p.Writable := by
    simp [h, writable]
  have agree := looks (.ofInt 60) 1 (by decide +kernel) (by decide +kernel) (by decide +kernel) all
    (by decide +kernel) (by decide +kernel) [(.ofInt 0, .put jam)] (.ofInt 1) jam.code
    [(.ofInt 2, .clear)] rfl
  constructor
  · rw [agree]
    exact congrArg Checked.accepted (by decide +kernel)
  · rw [others]
    decide +kernel

end Stockroom
