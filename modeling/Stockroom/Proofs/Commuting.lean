import Mathlib.Algebra.Order.BigOperators.Group.List
import Stockroom.Proofs.Abreast
import Stockroom.Proofs.Conservation
import Stockroom.Proofs.Stranding

/-! Exits of different orders commute.
Stock is written as an absolute value computed from the row, not as an increment. An exit has
the same answer all the same whether another order left before or after it, and both ways lead
to the same tables: what the other order wrote is added on top of what the exit reads, and stays
on top of what it writes. -/
namespace Stockroom

open Service (fits64 putting Pairs)

/- What an exit writes -/

def ProductRow.returned (lines : List OrderLine) (m : Moment) (r : ProductRow) : ProductRow :=
  if lines.any (·.productCode = r.code) then
    { r with stock := r.stock + units r.code lines, updatedAt := some m }
  else r

theorem units_unnamed {code : String} {lines : List OrderLine}
    (unnamed : ¬lines.any (·.productCode = code) = true) : units code lines = 0 := by
  have no_line : lines.filter (·.productCode = code) = [] := by
    simpa [List.filter_eq_nil_iff] using unnamed
  rw [units, no_line]
  rfl

theorem returned_face (lines : List OrderLine) (m : Moment) (r : ProductRow) :
    (r.returned lines m).face = r.face := by
  unfold ProductRow.returned
  split <;> rfl

theorem returned_code (lines : List OrderLine) (m : Moment) (r : ProductRow) :
    (r.returned lines m).code = r.code := congrArg (·.code) (returned_face lines m r)

theorem returned_stock (lines : List OrderLine) (m : Moment) (r : ProductRow) :
    (r.returned lines m).stock = r.stock + units r.code lines := by
  unfold ProductRow.returned
  split
  · rfl
  · rename_i unnamed
    rw [units_unnamed unnamed, Int.add_zero]

theorem returned_restocked (lines : List OrderLine) (m : Moment) (r : ProductRow) (n : Int) :
    ({ r with stock := n, updatedAt := some m } : ProductRow).returned lines m =
      { r.returned lines m with stock := n + units r.code lines, updatedAt := some m } := by
  unfold ProductRow.returned
  split
  · rfl
  · rename_i unnamed
    rw [units_unnamed unnamed, Int.add_zero]

theorem returned_comm (lines lines' : List OrderLine) (m : Moment) (r : ProductRow) :
    (r.returned lines m).returned lines' m = (r.returned lines' m).returned lines m := by
  have swap : r.stock + units r.code lines + units r.code lines' =
      r.stock + units r.code lines' + units r.code lines := by omega
  by_cases first : lines.any (·.productCode = r.code) = true
  · by_cases second : lines'.any (·.productCode = r.code) = true
    · simp only [ProductRow.returned, first, second, if_true, swap]
    · simp only [ProductRow.returned, first, second, if_true, if_false, Bool.false_eq_true]
  · by_cases second : lines'.any (·.productCode = r.code) = true
    · simp only [ProductRow.returned, first, second, if_true, if_false, Bool.false_eq_true]
    · simp only [ProductRow.returned, first, second, if_false, Bool.false_eq_true]

theorem returned_cons (line : OrderLine) (lines : List OrderLine) (m : Moment) (r : ProductRow) :
    (r.returned [line] m).returned lines m = r.returned (line :: lines) m := by
  by_cases first : line.productCode = r.code
  · have sum : r.stock + units r.code [line] + units r.code lines =
        r.stock + units r.code (line :: lines) := by
      rw [units_cons, units_cons, if_pos first]
      simp only [units, List.filter_nil, List.map_nil, List.sum_nil]
      omega
    by_cases rest : lines.any (·.productCode = r.code) = true
    · simp [ProductRow.returned, first, rest, sum]
    · rw [units_unnamed rest, Int.add_zero] at sum
      simp [ProductRow.returned, first, rest, sum]
  · simp [ProductRow.returned, first, units_cons]

theorem movedTo_comm {id id' : Int} (distinct : id ≠ id') (target target' : OrderStatus)
    (m : Moment) (o : OrderRow) :
    (o.movedTo id target m).movedTo id' target' m =
      (o.movedTo id' target' m).movedTo id target m := by
  by_cases here : o.id = id
  · have other : (o.movedTo id target m).id ≠ id' := by
      rw [movedTo_id, here]
      exact distinct
    have apart : o.id ≠ id' := by
      rw [here]
      exact distinct
    rw [movedTo_other other, movedTo_other apart]
  · have other : (o.movedTo id' target' m).id ≠ id := by
      rw [movedTo_id]
      exact here
    rw [movedTo_other other, movedTo_other here]

theorem Released.products {t t' : Tables} {lines : List OrderLine} {m : Moment}
    (h : Released [m] t lines t') (unique : t.UniqueCodes) :
    t'.products = t.products.map (·.returned lines m) := by
  induction h with
  | nil => simp [ProductRow.returned]
  | @cons t u t' m' p line lines member positive written rest ih =>
    cases List.mem_singleton.mp member
    obtain ⟨r, q, shown, computed, stocked⟩ := restock_effect written
    obtain ⟨_, rfl⟩ := toProduct_ok shown
    have given : r.stock + line.quantity = p.stock := Except.ok.inj computed
    rw [ih (stocked.sameFaces.uniqueCodes unique), stocked.after, Tables.updateProduct,
      List.map_map]
    refine List.map_congr_left fun row known => ?_
    rw [← returned_cons, Function.comp_apply]
    congr 1
    by_cases here : row.code = line.productCode
    · cases eq_of_nodup unique known stocked.member (here.trans stocked.named.symm)
      simp [ProductRow.returned, here, given, units]
    · have unnamed : ¬[line].any (·.productCode = row.code) = true := by
        simpa [eq_comm] using here
      rw [if_neg here, ProductRow.returned, if_neg unnamed]

namespace Tables

def patched (t : Tables) (f : ProductRow → ProductRow) (g : OrderRow → OrderRow) : Tables :=
  { t with products := t.products.map f, orders := t.orders.map g }

end Tables

/-- What the exit of an order does to the rows: nothing, or it moves its order and gives back
the units among lines. -/
inductive Parting (id : Int) (m : Moment) :
    (ProductRow → ProductRow) → (OrderRow → OrderRow) → Prop where
  | none : Parting id m (fun r => r) fun o => o
  | left (target : OrderStatus) (lines : List OrderLine) :
      Parting id m (·.returned lines m) (·.movedTo id target m)

theorem Parting.code {id : Int} {m : Moment} {f : ProductRow → ProductRow}
    {g : OrderRow → OrderRow} (parting : Parting id m f g) (r : ProductRow) :
    (f r).code = r.code := by
  cases parting with
  | none => rfl
  | left target lines => exact returned_code lines m r

theorem Parting.comm {id id' : Int} {m : Moment} {f f' : ProductRow → ProductRow}
    {g g' : OrderRow → OrderRow} (first : Parting id m f g) (second : Parting id' m f' g')
    (distinct : id ≠ id') (t : Tables) :
    (t.patched f g).patched f' g' = (t.patched f' g').patched f g := by
  unfold Tables.patched
  simp only [List.map_map]
  cases first with
  | none => rfl
  | left target lines =>
    cases second with
    | none => rfl
    | left target' lines' =>
      congr 1
      · exact List.map_congr_left fun r _ => returned_comm lines lines' m r
      · exact List.map_congr_left fun o _ => movedTo_comm distinct target target' m o

/- What an exit does not see of another -/

/-- Writes that leave an order alone and keep the products as they are, but for a number of
units on top of each stock. -/
structure Aside (id : Int) (m : Moment) (extra : String → Int) (f : ProductRow → ProductRow)
    (g : OrderRow → OrderRow) : Prop where
  face : ∀ r, (f r).face = r.face
  stock : ∀ r, (f r).stock = r.stock + extra r.code
  restocked : ∀ (r : ProductRow) (n : Int), f { r with stock := n, updatedAt := some m } =
    { f r with stock := n + extra r.code, updatedAt := some m }
  ids : ∀ o, (g o).id = o.id
  codes : ∀ o, (g o).code = o.code
  own : ∀ o, o.id = id → g o = o

theorem Parting.aside {id other : Int} {m : Moment} {f : ProductRow → ProductRow}
    {g : OrderRow → OrderRow} (parting : Parting other m f g) (distinct : id ≠ other) :
    ∃ extra, Aside id m extra f g := by
  cases parting with
  | none =>
    refine ⟨fun _ => 0, fun _ => rfl, fun r => (Int.add_zero _).symm, fun r n => ?_, fun _ => rfl,
      fun _ => rfl, fun _ _ => rfl⟩
    rw [Int.add_zero]
  | left target lines =>
    exact ⟨fun code => units code lines, returned_face lines m, returned_stock lines m,
      returned_restocked lines m, fun o => movedTo_id o other target m,
      fun o => movedTo_code o other target m,
      fun o own => movedTo_other (own ▸ distinct) target m⟩

namespace Aside

variable {id : Int} {m : Moment} {extra : String → Int} {f : ProductRow → ProductRow}
  {g : OrderRow → OrderRow} (aside : Aside id m extra f g) (t : Tables)

include aside

theorem code (r : ProductRow) : (f r).code = r.code := congrArg (·.code) (aside.face r)

theorem archived (r : ProductRow) : (f r).archived = r.archived :=
  congrArg (·.archived) (aside.face r)

theorem activeProduct (code : String) :
    (t.patched f g).activeProduct? code = (t.activeProduct? code).map f :=
  active_map rfl aside.code aside.archived code

theorem updateProduct {code : String} {n n' : Int} (more : n' = n + extra code) :
    (t.patched f g).updateProduct code (fun r => { r with stock := n', updatedAt := some m }) =
      (t.updateProduct code fun r => { r with stock := n, updatedAt := some m }).patched f g := by
  unfold Tables.updateProduct Tables.patched
  simp only [List.map_map]
  congr 1
  refine List.map_congr_left fun r _ => ?_
  rw [Function.comp_apply, Function.comp_apply]
  by_cases here : r.code = code
  · rw [if_pos ((aside.code r).trans here), if_pos here, aside.restocked, here, more]
  · rw [if_neg fun same => here ((aside.code r).symm.trans same), if_neg here]

theorem toProduct (r : ProductRow) :
    Agree (fun p q => p.stock = r.stock ∧ q = { p with stock := r.stock + extra r.code })
      r.toProduct (f r).toProduct := by
  have name : (f r).name = r.name := congrArg (·.name) (aside.face r)
  have price : (f r).price = r.price := congrArg (·.price) (aside.face r)
  have version : (f r).version = r.version := congrArg (·.version) (aside.face r)
  simp only [ProductRow.toProduct, name, price, version, aside.code, aside.archived, aside.stock]
  split
  · exact .ok ⟨rfl, rfl⟩
  · exact .error

theorem orderWithId : (t.patched f g).orderWithId? id = t.orderWithId? id := by
  have found : (t.orders.map g).find? (·.id = id) = (t.orders.find? (·.id = id)).map g := by
    rw [List.find?_map]
    congr 2
    funext o
    simp only [Function.comp_apply, aside.ids]
  change (t.orders.map g).find? (·.id = id) = t.orders.find? (·.id = id)
  rw [found]
  cases here : t.orders.find? (·.id = id) with
  | none => rfl
  | some o => exact congrArg some (aside.own o (by simpa using List.find?_some here))

theorem orderWithCode {o : OrderRow} (found : t.orderWithCode? o.code = some o) (own : o.id = id) :
    (t.patched f g).orderWithCode? o.code = some o := by
  change (t.orders.map g).find? (·.code = o.code) = some o
  have same : (fun r : OrderRow => decide (r.code = o.code)) ∘ g =
      fun r : OrderRow => decide (r.code = o.code) := by
    funext r
    simp only [Function.comp_apply, aside.codes]
  rw [List.find?_map, same]
  exact (congrArg (Option.map g) found).trans (congrArg some (aside.own o own))

theorem ordersWithIds : (t.patched f g).ordersWithIds [id] = t.ordersWithIds [id] := by
  have same : (t.orders.map g).filter (fun o => [id].contains o.id) =
      t.orders.filter fun o => [id].contains o.id := by
    rw [List.filter_map]
    refine (List.map_congr_left fun o here => ?_).trans (List.map_id _) |>.trans ?_
    · refine aside.own o ?_
      simpa [aside.ids] using (List.mem_filter.mp here).2
    · refine List.filter_congr fun o _ => ?_
      simp only [Function.comp_apply, aside.ids]
  unfold Tables.ordersWithIds
  exact congrArg (List.mergeSort · fun a b => decide (a.id ≤ b.id)) same

theorem moveStatus (expected target : OrderStatus) :
    (t.patched f g).moveStatus id expected target m =
      ((t.moveStatus id expected target m).1,
        (t.moveStatus id expected target m).2.patched f g) := by
  have same (o : OrderRow) : (decide ((g o).id = id) && decide ((g o).status = expected)) =
      (decide (o.id = id) && decide (o.status = expected)) := by
    rw [aside.ids]
    by_cases own : o.id = id
    · rw [aside.own o own]
    · simp [own]
  unfold Tables.moveStatus Tables.patched
  refine Prod.ext ?_ ?_
  · simp only [List.any_map, Function.comp_def, same]
  · simp only [List.map_map]
    congr 1
    refine List.map_congr_left fun o _ => ?_
    simp only [Function.comp_apply, same]
    split
    · rename_i here
      have own : o.id = id := by simpa using (Bool.and_eq_true _ _ |>.mp here).1
      rw [aside.own o own]
      refine Eq.symm (aside.own _ ?_)
      exact own
    · rfl

end Aside

def Tables.Room (t : Tables) (lines : List OrderLine) : Prop :=
  ∀ r ∈ t.products, 0 ≤ r.stock ∧ r.stock + units r.code lines < 2 ^ 63

/-- The second tables have the other writes on top, and there is room for the lines in both. -/
structure Behind (f : ProductRow → ProductRow) (g : OrderRow → OrderRow) (lines : List OrderLine)
    (t u : Tables) : Prop where
  after : u = t.patched f g
  positive : ∀ line ∈ lines, 1 ≤ line.quantity
  room : t.Room lines
  room' : u.Room lines

theorem Tables.Room.restocked {t : Tables} {line : OrderLine} {lines : List OrderLine}
    {r : ProductRow} {m : Moment} (room : t.Room (line :: lines)) (positive : 1 ≤ line.quantity)
    (member : r ∈ t.products) (named : r.code = line.productCode) :
    Tables.Room (t.updateProduct line.productCode fun row =>
      { row with stock := r.stock + line.quantity, updatedAt := some m }) lines := by
  obtain ⟨least, most⟩ := room r member
  rw [units_cons, if_pos named.symm] at most
  intro row written
  obtain ⟨before, known, rfl⟩ := List.mem_map.mp written
  split
  · rename_i here
    dsimp only
    rw [here, ← named]
    omega
  · rename_i other
    have kept := room before known
    rw [units_cons, if_neg fun same => other same.symm, Int.zero_add] at kept
    exact kept

theorem Tables.Room.bounds {t : Tables} {line : OrderLine} {lines : List OrderLine}
    {r : ProductRow} (room : t.Room (line :: lines)) (least : 1 ≤ line.quantity)
    (positive : ∀ line ∈ lines, 1 ≤ line.quantity) (member : r ∈ t.products)
    (named : r.code = line.productCode) :
    0 ≤ r.stock + line.quantity ∧ r.stock + line.quantity < 2 ^ 63 := by
  obtain ⟨low, high⟩ := room r member
  have later : 0 ≤ units r.code lines := units_nonneg positive
  rw [units_cons, if_pos named.symm] at high
  omega

/-- A line is given back on top of the other writes just as without them. -/
theorem Aside.release {id : Int} {m : Moment} {extra : String → Int}
    {f : ProductRow → ProductRow} {g : OrderRow → OrderRow} (aside : Aside id m extra f g)
    {line : OrderLine} {lines : List OrderLine} {t u : Tables}
    (behind : Behind f g (line :: lines) t u) :
    Agree (fun r r' => Behind f g lines r.2 r'.2)
      (t.restock line.productCode (putting line.quantity) m)
      (u.restock line.productCode (putting line.quantity) m) := by
  obtain ⟨rfl, positive, room, room'⟩ := behind
  obtain ⟨least, positive⟩ := List.forall_mem_cons.mp positive
  refine restock_agree ?_ fun r r' found found' => ?_
  · rw [aside.activeProduct, Option.map_eq_none_iff]
  rw [aside.activeProduct, found, Option.map_some, Option.some.injEq] at found'
  subst found'
  obtain ⟨member, named, _⟩ := activeProduct_mem found
  have member' : f r ∈ (t.patched f g).products := List.mem_map_of_mem member
  have named' : (f r).code = line.productCode := (aside.code r).trans named
  have bounds := room.bounds least positive member named
  have bounds' := room'.bounds least positive member' named'
  refine (aside.toProduct r).mono ?_
  rintro p q ⟨stock, rfl⟩
  have total : r.stock + extra r.code + line.quantity = (f r).stock + line.quantity := by
    rw [aside.stock]
  refine .ok ⟨?_, ?_, ?_, positive, ?_, ?_⟩
  · rw [stock, total, Service.fits64_of_bounds bounds.1 bounds.2,
      Service.fits64_of_bounds bounds'.1 bounds'.2]
  · dsimp only
    omega
  · refine aside.updateProduct t ?_
    dsimp only
    rw [stock, ← named]
    omega
  · rw [stock]
    exact room.restocked least member named
  · rw [total]
    exact room'.restocked least member' named'

/- Exits side by side -/

/-- The second tables have the other writes on top, and if the order is pending there is room
for its lines in both. -/
def Apart (f : ProductRow → ProductRow) (g : OrderRow → OrderRow) (order : Order)
    (t u : Tables) : Prop :=
  u = t.patched f g ∧ (order.status = .pending → Behind f g order.lines t u)

namespace Service

variable {id : Int} {m : Moment} {extra : String → Int} {f : ProductRow → ProductRow}
  {g : OrderRow → OrderRow} (aside : Aside id m extra f g) {s : Settings.Attempts}

include aside

theorem moveStatus_pairs (expected target : OrderStatus) (lines : List OrderLine) :
    Pairs m (Behind f g lines) (moveStatus id expected target m) (moveStatus id expected target m)
      (fun won won' t u => won = won' ∧ Behind f g lines t u) fun _ _ => True := by
  let F (t : Tables) : Except Fault (Bool × Tables) :=
    if fits64 id then .ok (t.moveStatus id expected target m) else .error .beyond64
  have met (w : World) : (moveStatus id expected target m).Meets w
      (fun won t => F w.tables = .ok (won, t)) (fun f => F w.tables = .error f) := by
    refine (moveStatus_meets id expected target m).mono ?_ ?_
    · rintro won t ⟨moved, fit⟩
      simp only [F, fit, if_true, moved]
    · rintro _ ⟨rfl, n, member, unfit⟩
      rw [List.mem_singleton.mp member] at unfit
      simp [F, unfit]
  refine pairs_of_agree (fun w _ _ => met w) (fun _ v _ => met v) ?_
  rintro t _ ⟨rfl, positive, room, room'⟩
  simp only [F, aside.moveStatus]
  split
  · exact .ok ⟨rfl, rfl, positive, room, room'⟩
  · exact .error

theorem releaseLines_pairs (order : Order) :
    Pairs m (Behind f g order.lines) (releaseLines s order) (releaseLines s order)
      (fun _ _ t u => u = t.patched f g) fun _ _ => True := by
  have each (line : OrderLine) (rest : List OrderLine) :
      Pairs m (Behind f g (line :: rest)) (release s line.productCode line.quantity)
        (release s line.productCode line.quantity) (fun _ _ => Behind f g rest)
        fun _ _ => True :=
    (release_pairs fun _ _ _ behind => aside.release behind).leaving fun _ _ _ => trivial
  exact (pairs_forM (fun line rest => (each line rest).noting) order.lines).giving
    fun _ _ _ _ h => h.after

theorem expireNow_pairs {order : Order} (own : order.id = id) :
    Pairs m (Behind f g order.lines) (expireNow s order) (expireNow s order)
      (fun won won' t u => won = won' ∧ u = t.patched f g) fun _ _ => True := by
  refine Pairs.after_now ?_
  rw [own]
  refine (moveStatus_pairs aside .pending .expired order.lines).bind_same fun won => ?_
  cases won with
  | true =>
    refine (releaseLines_pairs aside order).bind fun _ _ => ?_
    exact Passes.pairs_self ((note_passes _ _ _).bind (passes_pure true))
  | false =>
    exact (Passes.pairs_self ((note_passes _ _ _).bind (passes_pure false))).under
      fun _ _ h => h.after

theorem orderStatus_pairs :
    Pairs m (fun t u => u = t.patched f g) (orderStatus id) (orderStatus id)
      (fun status status' t u => status = status' ∧ u = t.patched f g) fun _ _ => True := by
  refine (query_pairs ?_).mono (fun _ _ h => h) (fun _ _ _ _ h => ⟨h.1, h.2.1⟩)
    fun _ _ _ => trivial
  rintro t _ rfl
  exact congrArg (Option.map (·.status)) (aside.orderWithId t).symm

theorem checkExpiry_pairs {order : Order} (own : order.id = id) (remark : String) :
    Pairs m (Apart f g order) (checkExpiry s order remark) (checkExpiry s order remark)
      (fun won won' t u => won = won' ∧ u = t.patched f g ∧ (won = false → Apart f g order t u))
      fun _ _ => True := by
  unfold checkExpiry
  refine pairs_guard (fun _ _ _ => trivial) fun _ => ?_
  refine Pairs.after_now ?_
  split
  · exact pairs_pure fun t u h => ⟨rfl, h.1, fun _ => h⟩
  rename_i due
  have pending : order.status = .pending := pending_of_isDue (m := m) (by simpa using due)
  refine ((expireNow_pairs aside own).under fun _ _ h => h.2 pending).bind_same fun won => ?_
  cases won with
  | true => exact pairs_pure fun t u h => ⟨rfl, h, nofun⟩
  | false =>
    rw [own]
    refine (orderStatus_pairs aside).bind_same fun status => ?_
    refine pairs_guard (fun _ _ _ => trivial) fun _ => ?_
    exact pairs_throw fun _ _ _ => trivial

theorem settle_pairs {order : Order} (own : order.id = id) (target : OrderStatus)
    (verb : String) :
    Pairs m (Apart f g order) (settle order target verb) (settle order target verb)
      (fun o o' t u => o = o' ∧ o.lines = order.lines ∧ Behind f g order.lines t u)
      fun _ _ => True := by
  unfold settle
  refine pairs_guard (fun _ _ _ => trivial) fun not_terminal => ?_
  have pending : order.status = .pending := by simpa [OrderStatus.isTerminal] using not_terminal
  refine Pairs.after_now ?_
  rw [own]
  have moved := moveStatus_pairs aside .pending target order.lines
  refine (moved.under fun _ _ h => h.2 pending).bind_same fun won => ?_
  cases won with
  | true => exact pairs_pure fun t u h => ⟨rfl, rfl, h⟩
  | false =>
    refine ((orderStatus_pairs aside).under fun _ _ h => h.after).bind_same fun status => ?_
    exact pairs_throw fun _ _ _ => trivial

theorem exitFrom_pairs {order : Order} (own : order.id = id) (exit : Exit) :
    Pairs m (Apart f g order) (exitFrom s exit order) (exitFrom s exit order)
      (fun result result' t u => result = result' ∧ u = t.patched f g) fun _ _ => True := by
  refine (checkExpiry_pairs aside own exit.remark).bind_same fun won => ?_
  cases won with
  | true => exact pairs_pure fun t u h => ⟨rfl, h.1⟩
  | false =>
    have ended := settle_pairs aside own exit.target exit.verb
    refine (ended.under fun _ _ h => h.2 rfl).bind_same fun settled => ?_
    refine pairs_given (fun _ _ h => h.1) fun lines => ?_
    cases exit with
    | pay => exact pairs_pure fun t u h => ⟨rfl, h.2.after⟩
    | cancel =>
      refine ((releaseLines_pairs aside settled).under ?_).bind fun _ _ => ?_
      · exact fun t u h => lines ▸ h.2
      · exact pairs_pure fun t u h => ⟨rfl, h⟩

theorem expireDue_pairs {order : Order} (own : order.id = id) :
    Pairs m (Apart f g order) (expireDue s order) (expireDue s order)
      (fun won won' t u => won = won' ∧ u = t.patched f g) fun _ _ => True := by
  refine Pairs.after_now ?_
  split
  · exact pairs_pure fun t u h => ⟨rfl, h.1⟩
  rename_i due
  have pending : order.status = .pending := pending_of_isDue (m := m) (by simpa using due)
  exact (expireNow_pairs aside own).under fun _ _ h => h.2 pending

end Service

structure Spared (a : OrderRow) (f : ProductRow → ProductRow) (g : OrderRow → OrderRow)
    (t u : Tables) : Prop where
  after : u = t.patched f g
  byCode : t.orderWithCode? a.code = some a
  byId : t.ordersWithIds [a.id] = [a]
  room : ∀ order, t.readOrder a = .ok order → order.status = .pending →
    Behind f g order.lines t u

theorem readOrder_id {t : Tables} {r : OrderRow} {order : Order}
    (read : t.readOrder r = .ok order) : order.id = r.id := by
  obtain ⟨_, rfl⟩ := readOrder_values read
  rfl

theorem Spared.read {a : OrderRow} {f : ProductRow → ProductRow} {g : OrderRow → OrderRow}
    {t u : Tables} (standing : Spared a f g t u) {α : Type} (shown : Order → α) :
    Agree (fun r r' => r.1 = r'.1 ∧ ∃ o, r.1 = shown o ∧ o.id = a.id ∧ Apart f g o r.2 r'.2)
      ((t.readOrder a).map fun o => (shown o, t)) ((u.readOrder a).map fun o => (shown o, u)) := by
  have same : u.readOrder a = t.readOrder a := by
    rw [standing.after]
    rfl
  rw [same]
  cases read : t.readOrder a with
  | error f => exact .error
  | ok order =>
    exact .ok ⟨rfl, order, rfl, readOrder_id read, standing.after, standing.room order read⟩

namespace Service

variable {a : OrderRow} {m : Moment} {extra : String → Int} {f : ProductRow → ProductRow}
  {g : OrderRow → OrderRow} (aside : Aside a.id m extra f g) {s : Settings.Attempts}

include aside

theorem orderOf_pairs :
    Pairs m (Spared a f g) (orderOf a.code) (orderOf a.code)
      (fun o o' t u => o = o' ∧ o.id = a.id ∧ Apart f g o t u) fun _ _ => True := by
  have met (w : World) (byCode : w.tables.orderWithCode? a.code = some a) :
      (orderOf a.code).Meets w (fun o t => (w.tables.readOrder a).map (·, w.tables) = .ok (o, t))
        (fun f => (w.tables.readOrder a).map (·, w.tables) = .error f) := by
    refine (orderOf_meets a.code).mono ?_ ?_
    · rintro o t ⟨rfl, r, named⟩
      cases byCode.symm.trans named.found
      rw [named.read]
      rfl
    · rintro f (⟨missing, _⟩ | ⟨r, found, hidden⟩)
      · rw [byCode] at missing
        cases missing
      · cases byCode.symm.trans found
        rw [hidden]
        rfl
  refine pairs_of_agree (fun w _ beside => met w beside.tables.byCode) (fun _ v beside => met v ?_)
    fun t u standing => (standing.read id).mono ?_
  · rw [beside.tables.after]
    exact aside.orderWithCode _ beside.tables.byCode rfl
  · rintro r r' ⟨same, _, rfl, own, apart⟩
    exact ⟨same, own, apart⟩

theorem orderWithId_pairs :
    Pairs m (Spared a f g) (orderWithId a.id) (orderWithId a.id)
      (fun found found' t u => found = found' ∧
        ∃ o, found = some o ∧ o.id = a.id ∧ Apart f g o t u) fun _ _ => True := by
  let shown (t : Tables) : Except Fault (List Order × Tables) :=
    (t.readOrder a).map fun o => ([o], t)
  have met (w : World) : (ordersOf [a]).Meets w (fun os t => shown w.tables = .ok (os, t))
      (fun f => shown w.tables = .error f) := by
    refine (ordersOf_meets [a]).mono ?_ ?_
    · rintro _ _ ⟨rfl, read | ⟨read, ⟨⟩⟩⟩
      simp only [shown, read, Except.map]
    · rintro f ⟨r, member, hidden⟩
      cases List.mem_singleton.mp member
      simp only [shown, hidden, Except.map]
  have listed : Pairs m (Spared a f g) (ordersWithIds [a.id]) (ordersWithIds [a.id])
      (fun os os' t u => os = os' ∧ ∃ o, os = [o] ∧ o.id = a.id ∧ Apart f g o t u)
      fun _ _ => True := by
    have looked : Pairs m (Spared a f g) (query [a.id] (·.ordersWithIds [a.id]))
        (query [a.id] (·.ordersWithIds [a.id]))
        (fun rows rows' t u => rows = rows' ∧ rows = [a] ∧ Spared a f g t u)
        fun _ _ => True := by
      refine (query_pairs fun t u standing => ?_).mono (fun _ _ h => h) ?_ fun _ _ _ => trivial
      · rw [standing.after, aside.ordersWithIds]
      · rintro rows rows' t u ⟨same, standing, rfl⟩
        exact ⟨same, standing.byId, standing⟩
    refine looked.bind_same fun rows => pairs_given (fun _ _ h => h.1) ?_
    rintro rfl
    refine pairs_of_agree (F := shown) (G := shown) (fun w _ _ => met w) (fun _ v _ => met v) ?_
    rintro t u ⟨_, standing⟩
    exact standing.read ([·])
  refine listed.bind fun os os' => pairs_pure ?_
  rintro t u ⟨rfl, o, rfl, own, apart⟩
  exact ⟨rfl, o, rfl, own, apart⟩

theorem leavePending_pairs (exit : Exit) :
    Pairs m (Spared a f g) (leavePending s exit a.code) (leavePending s exit a.code)
      (fun o o' t u => o = o' ∧ u = t.patched f g) fun t u => u = t.patched f g := by
  have stored : Pairs m (Spared a f g)
      (atomically (orderOf a.code >>= exitFrom s exit))
      (atomically (orderOf a.code >>= exitFrom s exit))
      (fun result result' t u => result = result' ∧ u = t.patched f g) (Spared a f g) := by
    refine Pairs.atomically ((orderOf_pairs aside).bind_same fun order => ?_)
    refine pairs_given (fun _ _ h => h.1) fun own => ?_
    exact (exitFrom_pairs aside own exit).under fun _ _ h => h.2
  refine (stored.leaving fun _ _ h => h.after).bind_same ?_
  rintro ⟨expired, order⟩
  have dropped := dropSnapshots_passes (order.lines.map (·.productCode))
  cases expired with
  | true =>
    refine (dropped.pairs_self.bind fun _ _ => ?_)
    exact pairs_throw fun _ _ h => h.2
  | false =>
    cases exit with
    | pay => exact Passes.pairs_self ((note_passes _ _ _).bind (passes_pure order))
    | cancel =>
      exact Passes.pairs_self (dropped.bind ((note_passes _ _ _).bind (passes_pure order)))

theorem expireOrder_pairs :
    Pairs m (Spared a f g) (expireOrder s a.id) (expireOrder s a.id)
      (fun won won' t u => won = won' ∧ u = t.patched f g) fun t u => u = t.patched f g := by
  have stored : Pairs m (Spared a f g) (atomically (expireIfDue s a.id))
      (atomically (expireIfDue s a.id))
      (fun order order' t u => order = order' ∧ u = t.patched f g) (Spared a f g) := by
    refine Pairs.atomically ((orderWithId_pairs aside).bind_same fun found => ?_)
    cases found with
    | none => exact pairs_given (P := False) (fun _ _ ⟨_, missing, _⟩ => nomatch missing) False.elim
    | some order =>
      refine pairs_given (P := order.id = a.id) ?_ fun own => ?_
      · rintro _ _ ⟨_, ⟨⟩, own, _⟩
        exact own
      refine ((expireDue_pairs aside own).under ?_).bind_same fun won => ?_
      · rintro _ _ ⟨_, ⟨⟩, _, apart⟩
        exact apart
      · cases won with
        | true => exact pairs_pure fun _ _ h => ⟨rfl, h⟩
        | false => exact pairs_pure fun _ _ h => ⟨rfl, h⟩
  have idle : Pairs m (Spared a f g) (disruptExpiry a.id) (disruptExpiry a.id)
      (fun _ _ => Spared a f g) fun t u => u = t.patched f g := by
    intro w v beside
    rw [disruptExpiry_alone a.id beside.still.1.alone,
      disruptExpiry_alone a.id beside.still'.1.alone]
    exact beside
  refine idle.bind fun _ _ => ?_
  refine (stored.leaving fun _ _ h => h.after).bind_same ?_
  intro order
  cases order with
  | none => exact pairs_pure fun _ _ h => ⟨rfl, h⟩
  | some order => exact Passes.pairs_self ((dropSnapshots_passes _).bind (passes_pure true))

theorem exits_pairs {s : Settings} {c : Command} (asked : c.Exits a) :
    Pairs m (Spared a f g) (c.perform s) (c.perform s)
      (fun x x' t u => x = x' ∧ u = t.patched f g) fun t u => u = t.patched f g := by
  cases asked with
  | pay =>
    exact ((leavePending_pairs aside .pay).giving fun _ _ _ _ h => ⟨congrArg _ h.1, h.2⟩).map
  | cancel =>
    exact ((leavePending_pairs aside .cancel).giving fun _ _ _ _ h => ⟨congrArg _ h.1, h.2⟩).map
  | expire =>
    exact ((expireOrder_pairs aside).giving fun _ _ _ _ h => ⟨congrArg _ h.1, h.2⟩).map

end Service

/- What one exit leaves -/

def Tables.Parted (t : Tables) (id : Int) (m : Moment) (t' : Tables) : Prop :=
  ∃ f g, Parting id m f g ∧ t' = t.patched f g

theorem Tables.Parted.none (t : Tables) (id : Int) (m : Moment) : t.Parted id m t := by
  refine ⟨_, _, .none, ?_⟩
  simp [Tables.patched]

theorem Left.parted {m : Moment} {t t' : Tables} {order : Order} {target : OrderStatus}
    (left : Left [m] t order target t') (unique : t.UniqueCodes) :
    t.Parted order.id m t' := by
  obtain ⟨shows, moved, rest⟩ := left
  cases List.mem_singleton.mp shows
  obtain ⟨_, rfl⟩ := moveStatus_ok moved
  rcases rest with ⟨_, rfl⟩ | ⟨_, released⟩
  · refine ⟨_, _, .left target [], ?_⟩
    simp [Tables.patched, ProductRow.returned]
  · refine ⟨_, _, .left target order.lines, ?_⟩
    have products := released.products unique
    have faces := released.moved.faces
    obtain ⟨_, _, _⟩ := t'
    cases products
    cases faces.orders
    cases faces.lines
    rfl

namespace Service

variable {w : World} {b : OrderRow} {s : Settings.Attempts}

theorem leavePending_parts (exit : Exit) (still : w.Still) (sound : Sound w.tables)
    (member : b ∈ w.tables.orders) :
    (leavePending s exit b.code).Ends w (fun _ v => w.tables.Parted b.id w.now v.tables)
      (fun _ v => w.tables.Parted b.id w.now v.tables) := by
  have parted {r : OrderRow} {order : Order} {target : OrderStatus} {t : Tables}
      (named : Named w.tables b.code r order) (left : Left w.times w.tables order target t) :
      w.tables.Parted b.id w.now t := by
    have only : w.tables.orderWithCode? b.code = some b := find_of_nodup sound.orderCodes member
    cases only.symm.trans named.found
    rw [← readOrder_id named.read]
    exact (still.times ▸ left).parted sound.codes
  refine (leavePending_ends exit b.code still.1.alone).mono ?_ ?_
  · rintro _ v ⟨_, r, order, named, _, _, left⟩
    exact parted named left
  · rintro _ v ⟨_, ⟨same, _⟩ | ⟨_, r, order, named, _, left⟩⟩
    · rw [same]
      exact .none w.tables b.id w.now
    · exact parted named left

theorem expireOrder_parts (still : w.Still) (sound : Sound w.tables)
    (member : b ∈ w.tables.orders) :
    (expireOrder s b.id).Ends w (fun _ v => w.tables.Parted b.id w.now v.tables)
      (fun _ v => w.tables.Parted b.id w.now v.tables) := by
  have met := expireOrder_meets (s := s) (w := w) b.id still.1.alone
  refine (met.and (expireOrder_restores s b.id still.1.alone)).mono ?_ ?_
  · rintro _ v ⟨⟨⟨_, expired⟩ | ⟨_, same, _⟩, _⟩, _⟩
    · obtain ⟨named, read, _, left⟩ := expired
      have only := ordersWithIds_of_mem sound.ids member
      rw [only] at named
      cases List.mem_singleton.mp named
      rw [← readOrder_id read]
      exact (still.times ▸ left).parted sound.codes
    · rw [same]
      exact .none w.tables b.id w.now
  · rintro _ v ⟨_, same⟩
    rw [same]
    exact .none w.tables b.id w.now

end Service

/-- Nobody disturbs the command, and the clock stands still. -/
structure Event.Still (e : Event) : Prop where
  quiet : e.disruptions.Quiet
  stands : e.disruptions.ticks = []

theorem exit_parts {w : World} {e : Event} {b : OrderRow} (still : e.Still)
    (sound : Sound w.tables) (member : b ∈ w.tables.orders) (asked : e.command.Exits b) :
    w.tables.Parted b.id e.now (w.after e).tables := by
  have calm : (w.facing e).Still := ⟨still.quiet, still.stands⟩
  have ends : (e.command.perform e.settings).Ends (w.facing e)
      (fun _ v => w.tables.Parted b.id e.now v.tables)
      (fun _ v => w.tables.Parted b.id e.now v.tables) := by
    generalize e.command = c at asked
    cases asked with
    | pay => exact Service.ends_map.mpr (Service.leavePending_parts .pay calm sound member)
    | cancel => exact Service.ends_map.mpr (Service.leavePending_parts .cancel calm sound member)
    | expire => exact Service.ends_map.mpr (Service.expireOrder_parts calm sound member)
  rcases event_ends ends with ⟨_, _, parted⟩ | ⟨_, _, parted⟩
  · exact parted
  · exact parted

/- Room in the stocks -/

/-- A stock with all that orders hold of it is a number of the tables. -/
def Tables.Roomy (t : Tables) : Prop :=
  ∀ code stock, t.stock? code = some stock → stock + t.held code < 2 ^ 63

theorem Sound.held_nonneg {t : Tables} (sound : Sound t) (code : String) : 0 ≤ t.held code := by
  refine List.sum_nonneg fun n named => ?_
  obtain ⟨l, here, rfl⟩ := List.mem_map.mp named
  have least := sound.quantities l (List.mem_of_mem_filter here)
  omega

theorem Sound.ordered_le {t : Tables} (sound : Sound t) {a : OrderRow} (member : a ∈ t.orders)
    (pending : a.status = .pending) (code : String) : t.ordered a.id code ≤ t.held code := by
  have canceled := held_move sound member pending .canceled a.createdAt code
  have rest := (sound.move member pending .canceled a.createdAt).held_nonneg code
  rw [if_neg (by decide)] at canceled
  omega

theorem Tables.Roomy.room {t : Tables} (roomy : t.Roomy) (sound : Sound t) {a : OrderRow}
    {order : Order} (member : a ∈ t.orders) (pending : a.status = .pending)
    (read : t.readOrder a = .ok order) : t.Room order.lines := by
  intro r here
  have known : t.stock? r.code = some r.stock := by
    rw [Tables.stock?, product_of_mem sound.codes here]
    rfl
  have most := roomy r.code r.stock known
  have part := sound.ordered_le member pending r.code
  rw [units_read read]
  exact ⟨(sound.inStock r here).1, by omega⟩

theorem Command.Exits.sets {c : Command} {b : OrderRow} (asked : c.Exits b) (code : String) :
    c.sets code = none := by
  cases asked <;> rfl

/-- Exits keep the room that there is: they move units between stocks and orders. -/
theorem Tables.Roomy.after {w : World} {e : Event} {b : OrderRow} (roomy : w.tables.Roomy)
    (still : e.Still) (sound : Sound w.tables) (member : b ∈ w.tables.orders)
    (asked : e.command.Exits b) : (w.after e).tables.Roomy := by
  intro code stock known
  obtain ⟨cs, makes, commits⟩ := event_makes w e still.quiet.alone
  obtain ⟨f, g, parting, after⟩ := exit_parts still sound member asked
  have before : (w.tables.stock? code).isSome := by
    obtain ⟨row, found, rfl⟩ := Option.map_eq_some_iff.mp known
    obtain ⟨here, named⟩ := product_mem found
    rw [after] at here
    obtain ⟨r, there, rfl⟩ := List.mem_map.mp here
    rw [← named, parting.code, Tables.stock?, product_of_mem sound.codes there]
    rfl
  have balanced := balance_makes makes commits sound (.inr (asked.sets code)) before
    (by rw [known]; rfl)
  unfold Tables.balance? at balanced
  rw [known, Option.map_some] at balanced
  obtain ⟨stock', had, same⟩ := Option.map_eq_some_iff.mp balanced.symm
  have most := roomy code stock' had
  omega

/- Exits one after the other -/

theorem event_beside {w v : World} {e : Event} {m : Moment} {pre post : Tables → Tables → Prop}
    (pairs : Pairs m pre (e.command.perform e.settings) (e.command.perform e.settings)
      (fun x x' t u => x = x' ∧ post t u) post)
    (beside : (w.facing e).Beside m pre (v.facing e)) :
    v.answer e = w.answer e ∧ post (w.after e).tables (v.after e).tables := by
  have ended (w : World) : w.answer e = (e.command.perform e.settings).result (w.facing e) ∧
      w.after e = (e.command.perform e.settings).final (w.facing e) := by
    unfold World.answer World.after Service.result Service.final
    cases e.command.perform e.settings (w.facing e) <;> exact ⟨rfl, rfl⟩
  obtain ⟨same, tables⟩ := pairs.ended (fun _ _ h => h) beside
  obtain ⟨told, after⟩ := ended w
  obtain ⟨told', after'⟩ := ended v
  rw [told, told', after, after']
  exact ⟨same.eq.symm, tables⟩

section Pair

variable {w : World} {a b : OrderRow} {e e' : Event} (sound : Sound w.tables)
  (roomy : w.tables.Roomy) (member : a ∈ w.tables.orders) (member' : b ∈ w.tables.orders)
  (distinct : a.id ≠ b.id) (still : e.Still) (still' : e'.Still)
  (asked : e.command.Exits a) (asked' : e'.command.Exits b)

include sound roomy member member' still' asked'

theorem exit_standing {f : ProductRow → ProductRow} {g : OrderRow → OrderRow} {m : Moment}
    {extra : String → Int} (aside : Aside a.id m extra f g)
    (after : (w.after e').tables = w.tables.patched f g) :
    Spared a f g w.tables (w.after e').tables := by
  have sound' : Sound (w.after e').tables := by
    obtain ⟨cs, _, commits⟩ := event_makes w e' still'.quiet.alone
    exact sound.commits commits
  have roomy' := roomy.after still' sound member' asked'
  have stays : a ∈ (w.after e').tables.orders := by
    rw [after]
    exact List.mem_map.mpr ⟨a, member, aside.own a rfl⟩
  refine ⟨after, find_of_nodup sound.orderCodes member, ordersWithIds_of_mem sound.ids member, ?_⟩
  intro order read waiting
  have pending : a.status = .pending := by
    obtain ⟨_, rfl⟩ := readOrder_values read
    exact waiting
  have read' : (w.after e').tables.readOrder a = .ok order := by
    rw [after]
    exact read
  refine ⟨after, ?_, roomy.room sound member pending read, roomy'.room sound' stays pending read'⟩
  exact fun line here => (sound.lines_of_read member pending read line here).1

include distinct still asked

/-- An exit ends the same before and after the exit of another order, and what the other wrote is
on top of what it writes. -/
theorem exit_beside (same : e'.now = e.now) :
    (w.after e').answer e = w.answer e ∧
      ∃ f g, Parting b.id e.now f g ∧ (w.after e').tables = w.tables.patched f g ∧
        ((w.after e').after e).tables = (w.after e).tables.patched f g := by
  obtain ⟨f, g, parting, after⟩ := exit_parts still' sound member' asked'
  rw [same] at parting
  obtain ⟨extra, aside⟩ := parting.aside distinct
  have standing := exit_standing sound roomy member member' still' asked' aside after
  have beside : (w.facing e).Beside e.now (Spared a f g) ((w.after e').facing e) :=
    ⟨⟨still.quiet, still.stands⟩, ⟨still.quiet, still.stands⟩, rfl, rfl, standing⟩
  obtain ⟨told, tables⟩ := event_beside (Service.exits_pairs aside asked) beside
  exact ⟨told, f, g, parting, after, tables⟩

end Pair

/-- Exits of different orders commute. Whichever of two orders is paid, canceled or expired first,
at one time, each command has the same answer and both ways end in the same tables, even where
the orders share products. -/
theorem exits_of_orders_commute {w : World} (reached : Reachable (fun _ => True) w)
    (roomy : ∀ code stock, w.tables.stock? code = some stock →
      stock + w.tables.held code < 2 ^ 63)
    {a b : OrderRow} (member : a ∈ w.tables.orders) (member' : b ∈ w.tables.orders)
    (distinct : a ≠ b) {e e' : Event} (still : e.Still) (still' : e'.Still)
    (same : e'.now = e.now) (asked : e.command.Exits a) (asked' : e'.command.Exits b) :
    (w.after e').answer e = w.answer e ∧ (w.after e).answer e' = w.answer e' ∧
      ((w.after e).after e').tables = ((w.after e').after e).tables := by
  have sound := reached.sound
  have apart : a.id ≠ b.id := fun shared =>
    distinct (eq_of_nodup sound.ids member member' shared)
  obtain ⟨told, f, g, parting, after, tables⟩ :=
    exit_beside sound roomy member member' apart still still' asked asked' same
  obtain ⟨told', f', g', parting', after', tables'⟩ :=
    exit_beside sound roomy member' member apart.symm still' still asked' asked same.symm
  refine ⟨told, told', ?_⟩
  calc ((w.after e).after e').tables
      = (w.tables.patched f g).patched f' g' := by rw [tables', after]
    _ = (w.tables.patched f' g').patched f g := parting.comm (same ▸ parting') apart.symm w.tables
    _ = ((w.after e').after e).tables := by rw [tables, after']

/-- Of two orders of tea one is canceled and one is paid, in either order. -/
theorem tea_orders_commute :
    let w := World.teaOrdered.after (.quiet 2 (.createOrder [("tea", 1)]))
    let cancel := Event.quiet 3 (.cancelOrder "order-1")
    let pay := Event.quiet 3 (.payOrder "order-2")
    (w.after pay).answer cancel = w.answer cancel ∧ (w.after cancel).answer pay = w.answer pay ∧
      ((w.after cancel).after pay).tables = ((w.after pay).after cancel).tables := by
  intro w cancel pay
  have reached : Reachable (fun _ => True) w :=
    .next teaOrdered_reached quiet_nothing.alone trivial
  have rows : ∀ r ∈ w.tables.products, r.stock + w.tables.held r.code < 2 ^ 63 := by
    decide +kernel
  have orders : ∃ a ∈ w.tables.orders, ∃ b ∈ w.tables.orders, a ≠ b ∧ a.code = "order-1" ∧
      b.code = "order-2" := by
    decide +kernel
  obtain ⟨a, member, b, member', distinct, code, code'⟩ := orders
  have asked : Command.Exits a (.cancelOrder "order-1") := code ▸ .cancel
  have asked' : Command.Exits b (.payOrder "order-2") := code' ▸ .pay
  refine exits_of_orders_commute reached ?_ member member' distinct ⟨quiet_nothing, rfl⟩
    ⟨quiet_nothing, rfl⟩ rfl asked asked'
  intro code stock known
  obtain ⟨r, found, rfl⟩ := Option.map_eq_some_iff.mp known
  obtain ⟨here, rfl⟩ := product_mem found
  exact rows r here

end Stockroom
