import Stockroom.Proofs.Coherence
import Stockroom.Proofs.Exactness
import Stockroom.Proofs.Nearest
import Stockroom.Proofs.Readable

namespace Stockroom

def Decimal.value : Decimal → ℚ
  | .finite s c e => (if s then -1 else 1) * (c * 10 ^ e)
  | _ => 0

theorem ofCents_value (n : Nat) : (Decimal.ofCents n).value = n / 100 := by
  rw [ofCents_natCast, Decimal.value]
  norm_num
  ring

theorem Desk.price_read {d : Decimal} {a : Amount} {n : Nat}
    (checked : checkPrice d = .accepted d) (cents : d.value = n / 100) (few : n < 10 ^ 15)
    (stored : Amount.ofDecimal? d = some a) : a.read = .ofCents n := by
  have finite := (price_storable checked).finite stored
  obtain ⟨c, e, rfl, nonzero, least, _⟩ := price_accepted checked
  have value : (c : ℚ) * 10 ^ e = n / 100 := by simpa [Decimal.value] using cents
  rw [ofCents_natCast]
  exact cents_value_read nonzero (by omega) value few stored finite

/- Rows that hold what was answered -/

/-- The row is that of the product, the price in its stored form. -/
structure ProductRow.Records (r : ProductRow) (p : Product) : Prop where
  code : r.code = p.code
  name : r.name = p.name
  stock : r.stock = p.stock
  archived : r.archived = p.archived
  version : r.version = p.version
  price : Amount.ofDecimal? p.price = some r.price

theorem ProductRow.Records.shown {r : ProductRow} {p : Product} (records : r.Records p) {n : Nat}
    (read : r.price.read = .ofCents n) : r.toProduct = .ok { p with price := .ofCents n } := by
  obtain ⟨code, name, stock, price, archived, version⟩ := p
  obtain ⟨rfl, rfl, rfl, rfl, rfl, _⟩ := records
  simp [ProductRow.toProduct, read, Decimal.ofCents, Decimal.isFinite]

structure Product.AsAsked (p : Product) (code name : String) (price : Decimal)
    (stock : Option Int) : Prop where
  code : p.code = code
  name : p.name = name
  price : p.price = price
  stock : ∀ quantity, stock = some quantity → p.stock = quantity
  offered : p.archived = false

section

variable {t t' : Tables} {code name : String} {price : Decimal} {p : Product}

theorem insertProduct_records {stock : Int}
    (inserted : t.insertProduct code name stock price = .ok t') :
    ∃ r, t'.product? code = some r ∧ r.Records { code, name, stock, price } := by
  obtain ⟨_, free, amount, stored, rfl⟩ := insertProduct_ok inserted
  refine ⟨⟨code, name, stock, amount, false, 0, none⟩, ?_, rfl, rfl, rfl, rfl, rfl, stored⟩
  rw [Tables.product?] at free
  rw [Tables.product?, List.find?_append, free]
  simp

theorem redescribe_records {m : Moment}
    (described : t.redescribe code name price m = .ok (p, t')) :
    (∃ r, t'.product? code = some r ∧ r.Records p) ∧ p.AsAsked code name price none := by
  obtain ⟨r, q, found, shown, offered, _, swapped, rfl⟩ := Tables.redescribe_ok.mp described
  obtain ⟨amount, stored, rfl⟩ := swapCatalog_ok swapped
  obtain ⟨_, rfl⟩ := toProduct_ok shown
  obtain ⟨_, rfl⟩ := product_mem found
  have here : r.isAt r.code r.version = true := by simpa [ProductRow.isAt] using offered
  refine ⟨⟨{ r with name, price := amount, version := r.version + 1, updatedAt := some m },
    ?_, rfl, rfl, rfl, rfl, rfl, stored⟩, rfl, rfl, rfl, nofun, offered⟩
  rw [product_update fun _ => by split <;> rfl, found, Option.map_some, if_pos rfl, if_pos here]

theorem Updated.records {stock : Option Int} (updated : Updated t code name price stock p t') :
    (∃ r, t'.product? code = some r ∧ r.Records p) ∧ p.AsAsked code name price stock := by
  cases updated with
  | described described => exact redescribe_records described
  | @corrected u _ m m' p p' quantity described _ corrected =>
    obtain ⟨⟨r, found, records⟩, asked⟩ := redescribe_records described
    obtain ⟨_, _, _, given, stocked⟩ := restock_effect corrected
    have stock : p'.stock = quantity := (Except.ok.inj given).symm
    refine ⟨⟨{ r with stock := p'.stock, updatedAt := some m' }, ?_, ?_⟩, ?_⟩
    · rw [stocked.after, product_update, found, Option.map_some, if_pos (product_mem found).2]
      exact fun _ => rfl
    · exact { records with stock := rfl }
    · exact { asked with stock := fun _ same => stock.trans (Option.some.inj same) }

end

/-- A command that sets the name and price of a product, and its stock if one is given. -/
inductive Command.Sets (code name : String) (price : Decimal) : Option Int → Command → Prop where
  | created {stock : Int} :
      Sets code name price (some stock) (.createProduct code name stock price)
  | updated {stock : Option Int} :
      Sets code name price stock (.updateProduct code name price stock)

section

variable {w : World} {e : Event} {code name : String} {price : Decimal} {stock : Option Int}
  {p : Product}

theorem answer_recorded (alone : e.disruptions.Alone) (sets : e.command.Sets code name price stock)
    (told : w.answer e = .ok (.product p)) :
    (∃ r, (w.after e).tables.product? code = some r ∧ r.Records p) ∧
      p.AsAsked code name price stock := by
  have ends : (e.command.perform e.settings).Ends (w.facing e)
      (fun a v => ∀ p, a = .product p →
        (∃ r, v.tables.product? code = some r ∧ r.Records p) ∧ p.AsAsked code name price stock)
      (fun _ _ => True) := by
    generalize e.command = c at sets
    cases sets with
    | @created stock =>
      refine Service.ends_map.mpr ((Service.createProduct_meets (w := w.facing e) code name stock
        price alone).mono ?_ fun _ _ _ => trivial)
      rintro _ v ⟨⟨inserted, _, _, rfl⟩, _⟩ _ ⟨⟩
      exact ⟨insertProduct_records inserted, rfl, rfl, rfl, fun _ => Option.some.inj, rfl⟩
    | updated =>
      refine Service.ends_map.mpr ((Service.updateProduct_meets (w := w.facing e) code name price
        stock alone).mono ?_ fun _ _ _ => trivial)
      rintro _ v ⟨updated, _⟩ _ ⟨⟩
      exact updated.records
  rcases event_ends ends with ⟨a, told', recorded⟩ | ⟨f, failed, _⟩
  · rw [told] at told'
    cases told'
    exact recorded p rfl
  · rw [told] at failed
    cases failed

theorem answer_of_list (readable : Readable w.tables) (quiet : e.disruptions.Quiet)
    {onlyActive : Bool} (asked : e.command = .listProducts onlyActive) :
    ∃ ps, w.answer e = .ok (.products ps) ∧
      List.Forall₂ (fun r p => r.toProduct = .ok p) (w.tables.listed onlyActive) ps := by
  have never (f : Fault) : (w.tables.listed onlyActive).mapM (·.toProduct) ≠ .error f := by
    intro failed
    obtain ⟨r, listed, hidden⟩ := mapM_error failed
    have stored : r ∈ w.tables.products :=
      List.mem_of_mem_filter ((List.mergeSort_perm _ _).subset listed)
    obtain ⟨p, shown⟩ := toProduct_finite (readable.prices r stored)
    rw [shown] at hidden
    cases hidden
  have ends : (e.command.perform e.settings).Ends (w.facing e)
      (fun a _ => ∃ ps, a = .products ps ∧
        (w.tables.listed onlyActive).mapM (·.toProduct) = .ok ps) (fun _ _ => False) := by
    rw [asked]
    refine Service.ends_map.mpr ((Service.productsByName_meets (w := w.facing e) onlyActive
      quiet.alone).mono ?_ ?_)
    · exact fun ps _ h => ⟨ps, rfl, h.1.2⟩
    · rintro f _ ⟨failed | ⟨noisy, _⟩, _⟩
      · exact never f failed
      · exact noisy quiet
  rcases event_ends ends with ⟨_, told, ps, rfl, read⟩ | ⟨f, _, absurd⟩
  · exact ⟨ps, told, mapM_ok.mp read⟩
  · exact absurd.elim

theorem Tables.mem_listed {t : Tables} {onlyActive : Bool} {r : ProductRow} :
    r ∈ t.listed onlyActive ↔ r ∈ t.products ∧ (onlyActive = true → r.archived = false) := by
  cases onlyActive <;> simp [listed]

theorem listed_once {t : Tables} (unique : t.UniqueCodes) {r : ProductRow}
    (found : t.product? code = some r) (shown : r.toProduct = .ok p) (offered : p.archived = false)
    {onlyActive : Bool} {ps : List Product}
    (read : List.Forall₂ (fun r p => r.toProduct = .ok p) (t.listed onlyActive) ps) :
    p ∈ ps ∧ ∀ q ∈ ps, q.code = code → q = p := by
  obtain ⟨member, rfl⟩ := product_mem found
  constructor
  · have active : r.archived = false := by
      obtain ⟨_, rfl⟩ := toProduct_ok shown
      exact offered
    have listed : r ∈ t.listed onlyActive := Tables.mem_listed.mpr ⟨member, by simp [active]⟩
    obtain ⟨q, here, same⟩ := forall₂_mem read.flip r listed
    rw [shown] at same
    cases same
    exact here
  · intro q here code
    obtain ⟨r', there, same⟩ := forall₂_mem read q here
    obtain ⟨_, rfl⟩ := toProduct_ok same
    cases eq_of_nodup unique member (Tables.mem_listed.mp there).1 code.symm
    rw [shown] at same
    exact (Except.ok.inj same).symm

end

/-- A product that was created or described with a price in whole cents is answered as it was
asked for, and every look at it and every list shows what was answered: the same product, its
price the same number with two places. -/
theorem cents_survive_storage {w : World} (empty : w.tables = {}) (fresh : w.snapshots.entries = [])
    {es : List Event} (fits : ∀ e ∈ es, e.disruptions.Alone ∧ e.command.Priced)
    {e : Event} (alone : e.disruptions.Alone) {code name : String} {price : Decimal}
    {stock : Option Int} (sets : e.command.Sets code name price stock)
    (checked : Desk.checkPrice price = .accepted price) {n : Nat} (cents : price.value = n / 100)
    (few : n < 10 ^ 15) {p : Product} (told : (w.run es).answer e = .ok (.product p)) :
    p.AsAsked code name price stock ∧ (Decimal.ofCents n).value = p.price.value ∧
      (∀ look : Event, look.disruptions.Quiet → look.command = .lookUpProduct code →
        ((w.run es).after e).answer look = .ok (.product { p with price := .ofCents n })) ∧
      ∀ (list : Event) onlyActive, list.disruptions.Quiet →
        list.command = .listProducts onlyActive →
        ∃ ps, ((w.run es).after e).answer list = .ok (.products ps) ∧
          { p with price := .ofCents n } ∈ ps ∧
          ∀ q ∈ ps, q.code = code → q = { p with price := .ofCents n } := by
  obtain ⟨⟨r, found, records⟩, asked⟩ := answer_recorded alone sets told
  have shown : r.toProduct = .ok { p with price := .ofCents n } :=
    records.shown (Desk.price_read checked cents few (asked.price ▸ records.price))
  have priced : e.command.Priced := by
    generalize e.command = c at sets
    cases sets <;> exact checked
  have reached : Reachable Command.Priced ((w.run es).after e) :=
    .next ((Reachable.start empty).run fits) alone priced
  refine ⟨asked, ?_, ?_, ?_⟩
  · rw [ofCents_value, asked.price, cents]
  · intro look quiet looked
    have coherent : w.Coherent := by
      intro kept member
      rw [fresh] at member
      cases member
    have shows := answer_of_look ((coherent.run es).after e) quiet.alone looked
    rcases shows with seen | ⟨_, _, noisy, _⟩
    · rw [seen, Tables.showProduct, found]
      exact congrArg (Except.map Answer.product) shown
    · exact absurd quiet noisy
  · intro list onlyActive quiet listed
    obtain ⟨ps, seen, read⟩ := answer_of_list reached.readable quiet listed
    exact ⟨ps, seen, listed_once reached.sound.codes found shown asked.offered read⟩

def dearTea : Event :=
  .quiet 2 (.updateProduct "tea" "Tea" (.ofCents 999999999999999) (some 4))

theorem dearest_tea_keeps_price :
    World.teaOrdered.answer dearTea =
        .ok (.product ⟨"tea", "Tea", 4, .ofCents 999999999999999, false, 1⟩) ∧
      (World.teaOrdered.after dearTea).answer (.quiet 3 (.lookUpProduct "tea")) =
        .ok (.product ⟨"tea", "Tea", 4, .ofCents 999999999999999, false, 1⟩) := by
  have first : Desk.checkPrice (.ofCents 150) = .accepted (.ofCents 150) := by rfl
  have checked : Desk.checkPrice (.ofCents 999999999999999) =
      .accepted (.ofCents 999999999999999) := by rfl
  have told : World.teaOrdered.answer dearTea =
      .ok (.product ⟨"tea", "Tea", 4, .ofCents 999999999999999, false, 1⟩) := by decide +kernel
  have cents : (Decimal.ofCents 999999999999999).value = (999999999999999 : Nat) / 100 :=
    ofCents_value 999999999999999
  obtain ⟨_, _, looks, _⟩ := cents_survive_storage (w := World.opening) (e := dearTea) rfl rfl
    (teaEvents_fit Command.Priced first trivial) quiet_nothing.alone .updated checked cents
    (by decide) told
  exact ⟨told, looks (.quiet 3 (.lookUpProduct "tea")) quiet_nothing rfl⟩

/-- A price with all the digits that a request may give is answered as it is, and a look right
after shows another number. -/
theorem longest_price_drifts :
    let price : Decimal := .ofCents 99999999999999999
    let create : Event := .quiet 0 (.createProduct "tea" "Tea" 5 price)
    Desk.checkPrice price = .accepted price ∧
      World.opening.answer create = .ok (.product ⟨"tea", "Tea", 5, price, false, 0⟩) ∧
      (World.opening.after create).answer (.quiet 1 (.lookUpProduct "tea")) =
        .ok (.product ⟨"tea", "Tea", 5, .ofCents 100000000000000000, false, 0⟩) ∧
      (Decimal.ofCents 100000000000000000).value ≠ price.value := by
  refine ⟨by rfl, by decide +kernel, by decide +kernel, ?_⟩
  norm_num [Decimal.ofCents, Decimal.value]

end Stockroom
