import Mathlib.Data.List.Forall2
import Stockroom.Store.Tables

namespace Stockroom

namespace Tables

def UniqueCodes (t : Tables) : Prop := (t.products.map (·.code)).Nodup

def UniqueIds (t : Tables) : Prop := (t.orders.map (·.id)).Nodup

def UniqueOrderCodes (t : Tables) : Prop := (t.orders.map (·.code)).Nodup

end Tables

/- Rows by their keys -/

theorem find_of_nodup {α κ : Type} [DecidableEq κ] {key : α → κ} {rows : List α} {a : α}
    (unique : (rows.map key).Nodup) (member : a ∈ rows) :
    rows.find? (fun b => key b = key a) = some a := by
  induction rows with
  | nil => cases member
  | cons b rows ih =>
    rw [List.map_cons, List.nodup_cons] at unique
    rcases List.mem_cons.mp member with rfl | later
    · simp
    · have other : key b ≠ key a := fun same => unique.1 (same ▸ List.mem_map_of_mem later)
      rw [List.find?_cons_of_neg (by simpa using other)]
      exact ih unique.2 later

theorem filter_of_nodup {α κ : Type} [DecidableEq κ] {key : α → κ} {rows : List α} {a : α}
    (unique : (rows.map key).Nodup) (member : a ∈ rows) :
    rows.filter (fun b => key b = key a) = [a] := by
  induction rows with
  | nil => cases member
  | cons b rows ih =>
    rw [List.map_cons, List.nodup_cons] at unique
    rcases List.mem_cons.mp member with rfl | later
    · have no_match : rows.filter (fun c => key c = key a) = [] := by
        refine List.filter_eq_nil_iff.mpr fun c here => ?_
        have other : key c ≠ key a := fun same => unique.1 (same ▸ List.mem_map_of_mem here)
        simpa using other
      rw [List.filter_cons_of_pos (by simp), no_match]
    · have other : key b ≠ key a := fun same => unique.1 (same ▸ List.mem_map_of_mem later)
      rw [List.filter_cons_of_neg (by simpa using other)]
      exact ih unique.2 later

theorem eq_of_nodup {α κ : Type} [DecidableEq κ] {key : α → κ} {rows : List α} {a b : α}
    (unique : (rows.map key).Nodup) (ha : a ∈ rows) (hb : b ∈ rows) (same : key a = key b) :
    a = b := by
  have found := find_of_nodup unique ha
  rw [same, find_of_nodup unique hb] at found
  exact (Option.some.inj found).symm

theorem nodup_append_fresh {α κ : Type} {key : α → κ} {rows : List α} {a : α}
    (unique : (rows.map key).Nodup) (fresh : ∀ b ∈ rows, key b ≠ key a) :
    ((rows ++ [a]).map key).Nodup := by
  rw [List.map_append, List.nodup_append]
  refine ⟨unique, List.pairwise_singleton _ _, ?_⟩
  intro k known k' new
  obtain ⟨b, member, rfl⟩ := List.mem_map.mp known
  rw [List.map_singleton, List.mem_singleton] at new
  rw [new]
  exact fresh b member

theorem activeProduct_mem {t : Tables} {code : String} {r : ProductRow}
    (found : t.activeProduct? code = some r) :
    r ∈ t.products ∧ r.code = code ∧ r.archived = false := by
  have member := List.mem_of_find?_eq_some found
  have fits := List.find?_some found
  simp only [Bool.and_eq_true, decide_eq_true_eq, Bool.not_eq_true'] at fits
  exact ⟨member, fits.1, fits.2⟩

theorem product_mem {t : Tables} {code : String} {r : ProductRow}
    (found : t.product? code = some r) : r ∈ t.products ∧ r.code = code :=
  ⟨List.mem_of_find?_eq_some found, by simpa using List.find?_some found⟩

theorem product_of_mem {t : Tables} {r : ProductRow} (unique : t.UniqueCodes)
    (member : r ∈ t.products) : t.product? r.code = some r :=
  find_of_nodup unique member

theorem toProduct_ok {r : ProductRow} {p : Product} (shown : r.toProduct = .ok p) :
    r.price.read.isFinite = true ∧
      p = ⟨r.code, r.name, r.stock, r.price.read, r.archived, r.version⟩ := by
  unfold ProductRow.toProduct at shown
  dsimp only at shown
  split at shown
  · rename_i finite
    cases shown
    exact ⟨finite, rfl⟩
  · cases shown

theorem check_ok {code : String} {quantity : Int} {unit total : Decimal} {line : OrderLine}
    (checked : OrderLine.check code quantity unit total = .ok line) :
    unit.isFinite = true ∧ total.isFinite = true ∧ line = ⟨code, quantity, unit, total⟩ := by
  unfold OrderLine.check at checked
  cases unit with
  | finite s c e =>
    cases total with
    | finite s' c' e' => 
      cases checked
      exact ⟨rfl, rfl, rfl⟩
    | infinite _ => cases checked
    | nan _ _ _ => cases checked
  | infinite _ => cases total <;> cases checked
  | nan _ _ _ => cases total <;> cases checked

/- Writes to products -/

theorem active_map {t u : Tables} {f : ProductRow → ProductRow}
    (after : u.products = t.products.map f) (codes : ∀ r, (f r).code = r.code)
    (archived : ∀ r, (f r).archived = r.archived) (code : String) :
    u.activeProduct? code = (t.activeProduct? code).map f := by
  unfold Tables.activeProduct?
  rw [after, List.find?_map]
  congr 2
  funext r
  rw [Function.comp_apply, codes, archived]

theorem product_update {t : Tables} {code c : String} {f : ProductRow → ProductRow}
    (keeps : ∀ r, (f r).code = r.code) :
    (t.updateProduct code f).product? c =
      (t.product? c).map fun r => if r.code = code then f r else r := by
  have same (r : ProductRow) : (if r.code = code then f r else r).code = r.code := by
    split
    · exact keeps r
    · rfl
  unfold Tables.updateProduct Tables.product?
  rw [List.find?_map]
  congr 2
  funext r
  simp [same]

theorem setStock_ok {t t' : Tables} {code : String} {quantity : Int} {m : Moment}
    (stored : t.setStock code quantity m = .ok t') :
    ((t.product? code).isSome → 0 ≤ quantity) ∧
      t' = t.updateProduct code fun r => { r with stock := quantity, updatedAt := some m } := by
  unfold Tables.setStock at stored
  split at stored
  · cases stored
  · rename_i allowed
    cases stored
    refine ⟨fun known => ?_, rfl⟩
    simpa [known] using allowed

theorem insertProduct_ok {t t' : Tables} {code name : String} {stock : Int} {price : Decimal}
    (inserted : t.insertProduct code name stock price = .ok t') :
    0 ≤ stock ∧ t.product? code = none ∧ ∃ amount, Amount.ofDecimal? price = some amount ∧
      t' = { t with
        products := t.products ++ [⟨code, name, stock, amount, false, 0, none⟩] } := by
  unfold Tables.insertProduct at inserted
  cases stored : Amount.ofDecimal? price with
  | none =>
    rw [stored] at inserted
    cases inserted
  | some amount =>
    simp only [stored] at inserted
    split at inserted
    · cases inserted
    rename_i least
    split at inserted
    · cases inserted
    rename_i free
    cases inserted
    exact ⟨Int.not_lt.mp least, by simpa using free, amount, rfl, rfl⟩

theorem swapCatalog_ok {t t' : Tables} {code name : String} {version : Int} {price : Decimal}
    {m : Moment} (swapped : t.swapCatalog code version name price m = .ok (true, t')) :
    ∃ amount, Amount.ofDecimal? price = some amount ∧
      t' = t.updateProduct code fun r =>
        if r.isAt code version then
          { r with name, price := amount, version := r.version + 1, updatedAt := some m }
        else r := by
  unfold Tables.swapCatalog at swapped
  split at swapped
  · cases stored : Amount.ofDecimal? price with
    | none =>
      rw [stored] at swapped
      cases swapped
    | some amount =>
      rw [stored] at swapped
      cases swapped
      exact ⟨amount, rfl, rfl⟩
  · cases swapped

theorem removeProduct_ok {t t' : Tables} {code : String} (removed : t.removeProduct code = .ok t') :
    ((t.product? code).isSome → ∀ l ∈ t.lines, l.productCode ≠ code) ∧
      t' = { t with products := t.products.filter (·.code ≠ code) } := by
  unfold Tables.removeProduct at removed
  split at removed
  · cases removed
  · rename_i free
    cases removed
    refine ⟨fun known => ?_, rfl⟩
    simpa [known] using free

/- Writes to orders -/

theorem foldl_max (ids : List Int) (start : Int) :
    start ≤ ids.foldl max start ∧ ∀ id ∈ ids, id ≤ ids.foldl max start := by
  induction ids generalizing start with
  | nil => simp
  | cons id ids ih =>
    obtain ⟨above, rest⟩ := ih (max start id)
    rw [List.foldl_cons]
    refine ⟨by omega, List.forall_mem_cons.mpr ⟨by omega, rest⟩⟩

theorem foldl_max_le (ids : List Int) {start n : Int} (low : start ≤ n) (below : ∀ id ∈ ids, id ≤ n) :
    ids.foldl max start ≤ n := by
  induction ids generalizing start with
  | nil => exact low
  | cons id ids ih =>
    obtain ⟨first, rest⟩ := List.forall_mem_cons.mp below
    exact ih (by omega) rest

theorem nextId_pos (t : Tables) : 0 < t.nextId := by
  have least := (foldl_max (t.orders.map (·.id)) 0).1
  unfold Tables.nextId
  omega

theorem nextId_above (t : Tables) : ∀ o ∈ t.orders, o.id < t.nextId := by
  intro o member
  have bound := (foldl_max (t.orders.map (·.id)) 0).2 o.id (List.mem_map_of_mem (f := (·.id)) member)
  unfold Tables.nextId
  omega

theorem nextId_fresh (t : Tables) : ∀ o ∈ t.orders, o.id ≠ t.nextId := fun o member =>
  Int.ne_of_lt (nextId_above t o member)

theorem nextId_le {t : Tables} {n : Int} (least : 0 ≤ n) (bound : ∀ o ∈ t.orders, o.id ≤ n) :
    t.nextId ≤ n + 1 := by
  have most := foldl_max_le (t.orders.map (·.id)) least (by simpa using bound)
  unfold Tables.nextId
  omega

theorem insertOrder_ok {t t' : Tables} {code : String} {total : Decimal} {expiresAt m : Moment}
    {id : Int} (inserted : t.insertOrder code total expiresAt m = .ok (id, t')) :
    t.orderWithCode? code = none ∧ id = t.nextId ∧
      ∃ amount, Amount.ofDecimal? total = some amount ∧
      t' = { t with
        orders := t.orders ++ [⟨t.nextId, code, .pending, amount, expiresAt, m, 0, none⟩] } := by
  unfold Tables.insertOrder at inserted
  cases stored : Amount.ofDecimal? total with
  | none =>
    rw [stored] at inserted
    cases inserted
  | some amount =>
    simp only [stored] at inserted
    split at inserted
    · cases inserted
    · rename_i free
      cases inserted
      exact ⟨by simpa using free, rfl, amount, rfl, rfl⟩

structure LineRow.Holds (id : Int) (line : OrderLine) (row : LineRow) : Prop where
  order : row.orderId = id
  product : row.productCode = line.productCode
  quantity : row.quantity = line.quantity
  least : 1 ≤ line.quantity
  unit : Amount.ofDecimal? line.unitPrice = some row.unitPrice
  total : Amount.ofDecimal? line.totalPrice = some row.totalPrice

theorem insertLine_ok {t t' : Tables} {id : Int} {line : OrderLine}
    (inserted : t.insertLine id line = .ok t') :
    (t.product? line.productCode).isSome ∧
      ∃ row, LineRow.Holds id line row ∧ t' = { t with lines := t.lines ++ [row] } := by
  unfold Tables.insertLine at inserted
  split at inserted
  · cases inserted
  · cases inserted
  · rename_i unit total hu ht
    split at inserted
    · cases inserted
    rename_i least
    split at inserted
    · cases inserted
    rename_i known
    cases inserted
    exact ⟨by simpa [Option.isSome_iff_ne_none] using known, _,
      ⟨rfl, rfl, rfl, by omega, hu, ht⟩, rfl⟩

theorem insertLines_ok {t t' : Tables} {id : Int} {lines : List OrderLine}
    (inserted : lines.foldlM (fun t line => t.insertLine id line) t = .ok t') :
    (∀ line ∈ lines, (t.product? line.productCode).isSome) ∧
      ∃ rows, List.Forall₂ (LineRow.Holds id) lines rows ∧
        t' = { t with lines := t.lines ++ rows } := by
  induction lines generalizing t with
  | nil =>
    cases inserted
    exact ⟨by simp, [], .nil, by rw [List.append_nil]⟩
  | cons line lines ih =>
    rw [List.foldlM_cons] at inserted
    cases first : t.insertLine id line with
    | error v =>
      rw [first] at inserted
      cases inserted
    | ok u =>
      rw [first] at inserted
      obtain ⟨known, row, holds, rfl⟩ := insertLine_ok first
      obtain ⟨known', rows, rest, rfl⟩ := ih inserted
      refine ⟨List.forall_mem_cons.mpr ⟨known, known'⟩, row :: rows, .cons holds rest, ?_⟩
      simp

def OrderRow.movedTo (r : OrderRow) (id : Int) (target : OrderStatus) (m : Moment) : OrderRow :=
  if r.id = id ∧ r.status = .pending then
    { r with status := target, version := r.version + 1, updatedAt := some m }
  else r

theorem movedTo_id (r : OrderRow) (id : Int) (target : OrderStatus) (m : Moment) :
    (r.movedTo id target m).id = r.id := by
  unfold OrderRow.movedTo
  split <;> rfl

theorem movedTo_code (r : OrderRow) (id : Int) (target : OrderStatus) (m : Moment) :
    (r.movedTo id target m).code = r.code := by
  unfold OrderRow.movedTo
  split <;> rfl

theorem moved_ids (rows : List OrderRow) (id : Int) (target : OrderStatus) (m : Moment) :
    (rows.map (·.movedTo id target m)).map (·.id) = rows.map (·.id) := by
  simp [movedTo_id]

theorem moved_codes (rows : List OrderRow) (id : Int) (target : OrderStatus) (m : Moment) :
    (rows.map (·.movedTo id target m)).map (·.code) = rows.map (·.code) := by
  simp [movedTo_code]

theorem movedTo_pending {r : OrderRow} {id : Int} (named : r.id = id) (pending : r.status = .pending)
    (target : OrderStatus) (m : Moment) : (r.movedTo id target m).status = target := by
  rw [OrderRow.movedTo, if_pos ⟨named, pending⟩]

theorem movedTo_other {r : OrderRow} {id : Int} (other : r.id ≠ id) (target : OrderStatus)
    (m : Moment) : r.movedTo id target m = r := by
  rw [OrderRow.movedTo, if_neg fun h => other h.1]

theorem moveStatus_ok {t u : Tables} {id : Int} {target : OrderStatus} {m : Moment}
    (moved : (true, u) = t.moveStatus id .pending target m) :
    (∃ r ∈ t.orders, r.id = id ∧ r.status = .pending) ∧
      u = { t with orders := t.orders.map (·.movedTo id target m) } := by
  obtain ⟨won, rfl⟩ := Prod.mk.inj moved
  refine ⟨by simpa using won.symm, ?_⟩
  congr 1
  refine List.map_congr_left fun r _ => ?_
  unfold OrderRow.movedTo
  by_cases here : r.id = id ∧ r.status = .pending
  · rw [if_pos here, if_pos (by simpa using here)]
  · rw [if_neg here, if_neg (by simpa using here)]

/- Readers -/

theorem toLine_ok {row : LineRow} {line : OrderLine} (shown : row.toLine = .ok line) :
    line.productCode = row.productCode ∧ line.quantity = row.quantity := by
  obtain ⟨_, _, rfl⟩ := check_ok shown
  exact ⟨rfl, rfl⟩

theorem toOrder_ok {r : OrderRow} {lines : List OrderLine} {order : Order}
    (made : r.toOrder lines = .ok order) :
    r.total.read.isFinite = true ∧
      order = ⟨r.id, r.code, r.status, r.total.read, r.expiresAt, r.createdAt, r.updatedAt,
        lines⟩ := by
  unfold OrderRow.toOrder at made
  dsimp only at made
  split at made
  · rename_i finite
    cases made
    exact ⟨finite, rfl⟩
  · cases made

theorem mem_ordersWithIds {t : Tables} {ids : List Int} {r : OrderRow} :
    r ∈ t.ordersWithIds ids ↔ r ∈ t.orders ∧ r.id ∈ ids := by
  simp [Tables.ordersWithIds]

theorem ordersWithIds_of_mem {t : Tables} {r : OrderRow} (unique : t.UniqueIds)
    (member : r ∈ t.orders) : t.ordersWithIds [r.id] = [r] := by
  have only : t.orders.filter (fun b => [r.id].contains b.id) = [r] := by
    simpa using filter_of_nodup unique member
  rw [Tables.ordersWithIds, only, List.mergeSort_singleton]

end Stockroom
