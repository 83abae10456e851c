import Mathlib.Algebra.BigOperators.Group.List.Basic
import Mathlib.Algebra.Ring.Int.Defs
import Stockroom.Proofs.History

namespace Stockroom

open Service (fits64 taking putting)

/-- The units of a product among lines. -/
def units (code : String) (lines : List OrderLine) : Int :=
  ((lines.filter (·.productCode = code)).map (·.quantity)).sum

namespace Tables

def stock? (t : Tables) (code : String) : Option Int := (t.product? code).map (·.stock)

/-- True when the order with an id holds its stock. -/
def isActive (t : Tables) (id : Int) : Bool :=
  t.orders.any fun o => o.id = id && OrderStatus.active.contains o.status

/-- The units of a product that orders hold. -/
def held (t : Tables) (code : String) : Int :=
  ((t.lines.filter fun l => l.productCode = code && t.isActive l.orderId).map (·.quantity)).sum

/-- The units of a product that one order names. -/
def ordered (t : Tables) (id : Int) (code : String) : Int :=
  (((t.linesOf id).filter (·.productCode = code)).map (·.quantity)).sum

def InStock (t : Tables) : Prop := ∀ r ∈ t.products, 0 ≤ r.stock ∧ r.stock < 2 ^ 63

end Tables

theorem units_cons (code : String) (line : OrderLine) (lines : List OrderLine) :
    units code (line :: lines) =
      (if line.productCode = code then line.quantity else 0) + units code lines := by
  unfold units
  by_cases here : line.productCode = code
  · simp [here]
  · simp [here]

theorem units_rows {rows : List LineRow} {lines : List OrderLine}
    (agree : List.Forall₂ (fun row line => line.productCode = row.productCode ∧
      line.quantity = row.quantity) rows lines) (code : String) :
    units code lines = ((rows.filter (·.productCode = code)).map (·.quantity)).sum := by
  induction agree with
  | nil => rfl
  | @cons row line rows lines first _ ih =>
    rw [units_cons, ih, first.1, first.2]
    by_cases here : row.productCode = code
    · simp [here]
    · simp [here]

theorem units_read {t : Tables} {r : OrderRow} {order : Order}
    (read : t.readOrder r = .ok order) (code : String) :
    units code order.lines = t.ordered r.id code := by
  obtain ⟨ls, shown, made⟩ := readOrder_ok.mp read
  obtain ⟨_, rfl⟩ := toOrder_ok made
  exact units_rows ((mapM_ok.mp shown).imp fun _ _ => toLine_ok) code

theorem units_holds {id : Int} {lines : List OrderLine} {rows : List LineRow}
    (holds : List.Forall₂ (LineRow.Holds id) lines rows) (code : String) :
    units code lines = ((rows.filter (·.productCode = code)).map (·.quantity)).sum :=
  units_rows (holds.imp fun _ _ held => ⟨held.product.symm, held.quantity.symm⟩).flip code

structure Restocked (t : Tables) (code : String) (r : ProductRow) (quantity : Int) (m : Moment)
    (t' : Tables) : Prop where
  member : r ∈ t.products
  named : r.code = code
  offered : r.archived = false
  least : 0 ≤ quantity
  most : quantity < 2 ^ 63
  after : t' = t.updateProduct code fun r => { r with stock := quantity, updatedAt := some m }

theorem restock_effect {t t' : Tables} {code : String} {compute : Product → Except Fault Int}
    {m : Moment} {p : Product} (written : t.restock code compute m = .ok (p, t')) :
    ∃ r q, r.toProduct = .ok q ∧ compute q = .ok p.stock ∧ Restocked t code r p.stock m t' := by
  obtain ⟨r, q, quantity, found, shown, computed, fit, stored, rfl⟩ := Tables.restock_ok.mp written
  obtain ⟨member, named, offered⟩ := activeProduct_mem found
  obtain ⟨allowed, after⟩ := setStock_ok stored
  have known : (t.product? code).isSome := by
    rw [Tables.product?, List.find?_isSome]
    exact ⟨r, member, by simpa using named⟩
  have most : quantity < 2 ^ 63 := by
    simp only [fits64, Bool.and_eq_true, decide_eq_true_eq] at fit
    exact fit.2
  exact ⟨r, q, shown, computed, member, named, offered, allowed known, most, after⟩

theorem Restocked.stock {t t' : Tables} {code c : String} {r : ProductRow} {quantity : Int}
    {m : Moment} (h : Restocked t code r quantity m t') (unique : t.UniqueCodes) :
    t'.stock? c = (t.stock? c).map (· + if code = c then quantity - r.stock else 0) := by
  have kept : ∀ r : ProductRow, ({ r with stock := quantity, updatedAt := some m } : ProductRow).code
      = r.code := fun _ => rfl
  rw [h.after, Tables.stock?, Tables.stock?, product_update kept, Option.map_map, Option.map_map]
  cases found : t.product? c with
  | none => rfl
  | some row =>
    obtain ⟨member, named⟩ := product_mem found
    simp only [Option.map_some, Function.comp_apply, Option.some.injEq]
    by_cases here : code = c
    · have same : row = r :=
        eq_of_nodup unique member h.member (named.trans (here.symm.trans h.named.symm))
      rw [if_pos (named.trans here.symm), if_pos here, same]
      change quantity = r.stock + (quantity - r.stock)
      omega
    · rw [if_neg fun eq => here (eq.symm.trans named), if_neg here]
      exact (Int.add_zero _).symm

theorem Restocked.inStock {t t' : Tables} {code : String} {r : ProductRow} {quantity : Int}
    {m : Moment} (h : Restocked t code r quantity m t') (bounded : t.InStock) : t'.InStock := by
  rw [h.after]
  intro row member
  obtain ⟨before, known, rfl⟩ := List.mem_map.mp member
  split
  · exact ⟨h.least, h.most⟩
  · exact bounded before known

/- What writes of stock leave alone -/

def ProductRow.face (r : ProductRow) : ProductRow := { r with stock := 0, updatedAt := none }

structure SameFaces (t t' : Tables) : Prop where
  products : t'.products.map (·.face) = t.products.map (·.face)
  orders : t'.orders = t.orders
  lines : t'.lines = t.lines

theorem SameFaces.refl (t : Tables) : SameFaces t t := ⟨rfl, rfl, rfl⟩

theorem SameFaces.trans {t u v : Tables} (first : SameFaces t u) (second : SameFaces u v) :
    SameFaces t v :=
  ⟨second.products.trans first.products, second.orders.trans first.orders,
    second.lines.trans first.lines⟩

theorem SameFaces.symm {t u : Tables} (h : SameFaces t u) : SameFaces u t :=
  ⟨h.products.symm, h.orders.symm, h.lines.symm⟩

theorem SameFaces.row {t t' : Tables} (h : SameFaces t t') {r : ProductRow}
    (member : r ∈ t'.products) : ∃ before ∈ t.products, before.face = r.face := by
  have faced : r.face ∈ t.products.map (·.face) := h.products ▸ List.mem_map_of_mem member
  exact List.mem_map.mp faced

theorem SameFaces.uniqueCodes {t t' : Tables} (h : SameFaces t t') (unique : t.UniqueCodes) :
    t'.UniqueCodes := by
  have codes (u : Tables) : u.products.map (·.code) = (u.products.map (·.face)).map (·.code) := by
    rw [List.map_map]
    rfl
  unfold Tables.UniqueCodes
  rw [codes, h.products, ← codes]
  exact unique

theorem SameFaces.active {t u : Tables} (h : SameFaces t u) {code : String} {r : ProductRow}
    (found : u.activeProduct? code = some r) :
    ∃ before, t.activeProduct? code = some before ∧ before.price = r.price := by
  have faced (v : Tables) : (v.activeProduct? code).map (·.face) =
      (v.products.map (·.face)).find? fun r => r.code = code && !r.archived := by
    rw [List.find?_map]
    rfl
  have same := faced t
  rw [← h.products, ← faced u, found, Option.map_some] at same
  obtain ⟨before, known, shown⟩ := Option.map_eq_some_iff.mp same
  exact ⟨before, known, congrArg (·.price) shown⟩

theorem Restocked.sameFaces {t t' : Tables} {code : String} {r : ProductRow} {quantity : Int}
    {m : Moment} (h : Restocked t code r quantity m t') : SameFaces t t' := by
  rw [h.after]
  refine ⟨?_, rfl, rfl⟩
  change (t.products.map _).map _ = _
  rw [List.map_map]
  refine List.map_congr_left fun row _ => ?_
  rw [Function.comp_apply]
  split <;> rfl

/- Chains of writes -/

theorem map_add_zero (o : Option Int) : o.map (· + 0) = o := by
  cases o with
  | none => rfl
  | some n => exact congrArg some (Int.add_zero n)

theorem map_add_add (o : Option Int) (a b : Int) :
    (o.map (· + a)).map (· + b) = o.map (· + (a + b)) := by
  cases o with
  | none => rfl
  | some n => exact congrArg some (Int.add_assoc n a b)

theorem taking_ok {quantity n : Int} {p : Product} (h : taking quantity p = .ok n) :
    n = p.stock - quantity := by
  unfold taking at h
  split at h
  · cases h
  · cases h
    rfl

/-- A chain of writes that moves each stock by a number of units. -/
structure Moved (t : Tables) (d : String → Int) (t' : Tables) : Prop where
  faces : SameFaces t t'
  inStock : t.InStock → t'.InStock
  stock : t.UniqueCodes → ∀ c, t'.stock? c = (t.stock? c).map (· + d c)

theorem Moved.refl (t : Tables) : Moved t (fun _ => 0) t :=
  ⟨.refl t, id, fun _ c => (map_add_zero (t.stock? c)).symm⟩

theorem Moved.trans {t u v : Tables} {a b : String → Int} (first : Moved t a u)
    (second : Moved u b v) : Moved t (fun c => a c + b c) v := by
  refine ⟨first.faces.trans second.faces, fun h => second.inStock (first.inStock h), ?_⟩
  intro unique c
  rw [second.stock (first.faces.uniqueCodes unique), first.stock unique, map_add_add]

theorem Restocked.moved {t t' : Tables} {code : String} {r : ProductRow} {quantity : Int}
    {m : Moment} (h : Restocked t code r quantity m t') :
    Moved t (fun c => if code = c then quantity - r.stock else 0) t' :=
  ⟨h.sameFaces, h.inStock, fun unique _ => h.stock unique⟩

theorem Reserved.moved {times : List Moment} {t t' : Tables} {wanted : List (String × Int)}
    {lines : List OrderLine} (h : Reserved times t wanted lines t') :
    Moved t (fun c => -units c lines) t' := by
  induction h with
  | nil => exact .refl _
  | @cons t u t' code quantity m p total line wanted lines _ positive written priced checked _ ih =>
    obtain ⟨r, q, shown, computed, stocked⟩ := restock_effect written
    obtain ⟨_, rfl⟩ := toProduct_ok shown
    have taken : p.stock - r.stock = -quantity := by
      have := taking_ok computed
      dsimp only at this
      omega
    obtain ⟨_, _, rfl⟩ := check_ok checked
    convert stocked.moved.trans ih using 1
    funext c
    rw [units_cons]
    dsimp only
    split <;> omega

theorem Released.moved {times : List Moment} {t t' : Tables} {lines : List OrderLine}
    (h : Released times t lines t') : Moved t (fun c => units c lines) t' := by
  induction h with
  | nil => exact .refl _
  | @cons t u t' m p line lines _ positive written _ ih =>
    obtain ⟨r, q, shown, computed, stocked⟩ := restock_effect written
    obtain ⟨_, rfl⟩ := toProduct_ok shown
    have given : p.stock - r.stock = line.quantity := by
      have computed : r.stock + line.quantity = p.stock := Except.ok.inj computed
      omega
    convert stocked.moved.trans ih using 1
    funext c
    rw [units_cons, given]

end Stockroom
