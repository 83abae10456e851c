import Stockroom.Proofs.Statements
import Stockroom.Proofs.Writes

namespace Stockroom

/- Results -/

theorem mapError_ok {α ε ε' : Type} {x : Except ε α} {g : ε → ε'} {a : α} :
    x.mapError g = .ok a ↔ x = .ok a := by
  cases x <;> simp [Except.mapError]

theorem mapM_ok {α β ε : Type} {f : α → Except ε β} {xs : List α} {ys : List β} :
    xs.mapM f = .ok ys ↔ List.Forall₂ (fun x y => f x = .ok y) xs ys := by
  induction xs generalizing ys with
  | nil => cases ys <;> simp [pure, Except.pure]
  | cons x xs ih =>
    rw [List.mapM_cons]
    constructor
    · intro h
      cases hx : f x with
      | error e => simp [hx, bind, Except.bind] at h
      | ok y =>
        cases hxs : xs.mapM f with
        | error e => simp [hx, hxs, bind, Except.bind] at h
        | ok zs =>
          simp only [hx, hxs, bind, Except.bind, pure, Except.pure, Except.ok.injEq] at h
          subst h
          exact .cons hx (ih.mp hxs)
    · intro h
      cases h with
      | cons hx hxs =>
        rw [hx, ih.mpr hxs]
        rfl

theorem mapM_error {α β ε : Type} {f : α → Except ε β} {xs : List α} {e : ε}
    (h : xs.mapM f = .error e) : ∃ x ∈ xs, f x = .error e := by
  induction xs with
  | nil => simp [pure, Except.pure] at h
  | cons x xs ih =>
    rw [List.mapM_cons] at h
    cases hx : f x with
    | error g =>
      simp only [hx, bind, Except.bind, Except.error.injEq] at h
      exact ⟨x, List.mem_cons_self, h ▸ hx⟩
    | ok y =>
      cases hxs : xs.mapM f with
      | error g =>
        simp only [hx, hxs, bind, Except.bind, Except.error.injEq] at h
        obtain ⟨z, member, hz⟩ := ih (hxs.trans (congrArg _ h))
        exact ⟨z, List.mem_cons_of_mem _ member, hz⟩
      | ok zs => simp [hx, hxs, bind, Except.bind, pure, Except.pure] at h

def Tables.readOrder (t : Tables) (r : OrderRow) : Except Fault Order := do
  r.toOrder (← (t.linesOf r.id).mapM (·.toLine))

theorem readOrder_ok {t : Tables} {r : OrderRow} {o : Order} :
    t.readOrder r = .ok o ↔
      ∃ ls, (t.linesOf r.id).mapM (·.toLine) = .ok ls ∧ r.toOrder ls = .ok o := by
  unfold Tables.readOrder
  cases (t.linesOf r.id).mapM (·.toLine) <;> simp [bind, Except.bind]

theorem readOrder_error {t : Tables} {r : OrderRow} {f : Fault} :
    t.readOrder r = .error f ↔ (t.linesOf r.id).mapM (·.toLine) = .error f ∨
      ∃ ls, (t.linesOf r.id).mapM (·.toLine) = .ok ls ∧ r.toOrder ls = .error f := by
  unfold Tables.readOrder
  cases (t.linesOf r.id).mapM (·.toLine) <;> simp [bind, Except.bind]

def Tables.Tells (t : Tables) (row : Option OrderRow) (o : Option Order) : Prop :=
  Option.Rel (fun r o => t.readOrder r = .ok o) row o

theorem tells_head {t : Tables} {rows : List OrderRow} {os : List Order}
    (h : List.Forall₂ (fun r o => t.readOrder r = .ok o) rows os) :
    t.Tells rows.head? os.head? := by
  cases h with
  | nil => exact .none
  | cons hr _ => exact .some hr

def Tables.insertLines (t : Tables) (id : Int) (lines : List OrderLine) : Except Violation Tables :=
  lines.foldlM (fun t line => t.insertLine id line) t

namespace Service

variable {w : World}

/- Products -/

def Shows (row : Option ProductRow) (p : Option Product) : Prop :=
  Option.Rel (fun r p => r.toProduct = .ok p) row p

theorem productOf_meets (row : Option ProductRow) :
    (productOf row).Meets w (fun p t => t = w.tables ∧ Shows row p)
      (fun f => ∃ r, row = some r ∧ r.toProduct = .error f) := by
  cases row with
  | none => exact meets_pure ⟨rfl, .none⟩
  | some r =>
    refine meets_map ((ofExcept_meets r.toProduct).mono ?_ fun f h => ⟨r, rfl, h⟩)
    exact fun p t h => ⟨h.1, .some h.2⟩

theorem productOf_keeps (row : Option ProductRow) : (productOf row).Keeps := by
  cases row with
  | none => exact keeps_pure none
  | some r => exact keeps_map (ofExcept_keeps _)

theorem productRead_meets (read : Tables → Option ProductRow) :
    (query [] read >>= productOf).Meets w
      (fun p t => t = w.tables ∧ Shows (read w.tables) p)
      (fun f => ∃ r, read w.tables = some r ∧ r.toProduct = .error f) := by
  refine ((query_meets [] read).mono (fun _ _ h => h) fun f h => (not_unfit_nil f h).elim).bind ?_
  rintro _ v ⟨same, rfl, _⟩ _
  refine (productOf_meets (read w.tables)).mono ?_ fun _ h => h
  exact fun p t h => ⟨h.1.trans same, h.2⟩

theorem productWithCode_meets (code : String) :
    (productWithCode code).Meets w
      (fun p t => t = w.tables ∧ Shows (w.tables.product? code) p)
      (fun f => ∃ r, w.tables.product? code = some r ∧ r.toProduct = .error f) :=
  productRead_meets (·.product? code)

theorem lockProduct_meets (code : String) :
    (lockProduct code).Meets w
      (fun p t => t = w.tables ∧ Shows (w.tables.activeProduct? code) p)
      (fun f => ∃ r, w.tables.activeProduct? code = some r ∧ r.toProduct = .error f) := by
  have refusal : (disruption none (·.rowLocks) (fun d l => { d with rowLocks := l }) >>=
      refuse).Meets w (fun _ t => t = w.tables)
      (fun f => ∃ r, w.tables.activeProduct? code = some r ∧ r.toProduct = .error f) := by
    refine refused_meets ?_ (fun _ _ => rfl) fun quiet => quiet.rowLocks
    exact fun d l sub => { Disruptions.Leaves.refl d with rowLocks := sub }
  unfold lockProduct
  rw [← bind_assoc]
  apply refusal.bind
  intro _ v same _
  simpa only [same] using productRead_meets (w := v) (·.activeProduct? code)

theorem writeStock_meets (code : String) (quantity : Int) (now : Moment) :
    (writeStock code quantity now).Meets w
      (fun _ t => w.tables.setStock code quantity now = .ok t ∧ fits64 quantity = true)
      (Breaks [quantity] (w.tables.setStock code quantity now)) := by
  refine (command_meets _ _).mono ?_ fun f h => silent_breaks.mp h
  exact fun _ t h => ⟨silent_ok.mp h.1, h.2 _ List.mem_cons_self⟩

theorem swapCatalog_meets (code : String) (version : Int) (name : String) (price : Decimal)
    (now : Moment) :
    (swapCatalog code version name price now).Meets w
      (fun b t => (w.tables.swapCatalog code version name price now = .ok (b, t) ∧
          fits64 version = true) ∨ (b = false ∧ t = w.tables ∧ ¬w.Quiet))
      (Breaks [version] (w.tables.swapCatalog code version name price now)) := by
  unfold swapCatalog
  refine Meets.bind (disruption_meets ?_ ?_ fun quiet => quiet.lostSwaps) ?_
  · exact fun d l sub => { Disruptions.Leaves.refl d with lostSwaps := sub }
  · exact fun _ _ => rfl
  rintro lost v ⟨same, noisy⟩ _
  apply meets_ite
  · rintro rfl
    exact meets_pure (.inr ⟨rfl, same, noisy.resolve_left (by decide)⟩)
  · intro _
    refine (command_meets [version] _).mono ?_ ?_
    · exact fun b t h => .inl ⟨same ▸ h.1, h.2 _ List.mem_cons_self⟩
    · exact fun f h => same ▸ h

theorem insertProduct_meets (code name : String) (stock : Int) (price : Decimal) :
    (insertProduct code name stock price).Meets w
      (fun p t => w.tables.insertProduct code name stock price = .ok t ∧ fits64 stock = true ∧
        price.isFinite = true ∧ p = { code, name, stock, price })
      (fun f => Breaks [stock] (w.tables.insertProduct code name stock price) f ∨
        ((∃ t, w.tables.insertProduct code name stock price = .ok t) ∧ price.isFinite = false ∧
          f = .notFinite "Product" [("price_per_unit", price)])) := by
  refine ((command_meets [stock] _).mono (fun _ _ h => h)
    fun f h => .inl (silent_breaks.mp h)).bind ?_
  rintro _ v ⟨stored, fit⟩ _
  have stored := silent_ok.mp stored
  apply meets_ite
  · exact fun finite => meets_pure ⟨stored, fit _ List.mem_cons_self, finite, rfl⟩
  · exact fun infinite => meets_throw (.inr ⟨⟨_, stored⟩, by simpa using infinite, rfl⟩)

theorem productExists_meets (code : String) (archived : Option Bool) {bad : Fault → Prop} :
    (productExists code archived).Meets w
      (fun b t => t = w.tables ∧
        (b = w.tables.products.any (fun r => r.code = code && archived.all (· = r.archived)) ∨
          (b = false ∧ ¬w.Quiet)))
      bad := by
  unfold productExists
  refine Meets.bind (disruption_meets ?_ ?_ fun quiet => quiet.unseen) ?_
  · exact fun d l sub => { Disruptions.Leaves.refl d with unseen := sub }
  · exact fun _ _ => rfl
  rintro lost v ⟨same, noisy⟩ _
  apply meets_ite
  · rintro rfl
    exact meets_pure ⟨same, .inr ⟨rfl, noisy.resolve_left (by decide)⟩⟩
  · intro _
    refine (query_meets [] _).mono ?_ fun f h => (not_unfit_nil f h).elim
    exact fun b t h => ⟨h.1.trans same, .inl (same ▸ h.2.1)⟩

theorem productExists_keeps (code : String) (archived : Option Bool) :
    (productExists code archived).Keeps := by
  refine Keeps.bind (fun _ => rfl) fun lost => ?_
  split
  · exact keeps_pure false
  · exact query_keeps _ _

theorem productsByName_keeps (onlyActive : Bool) : (productsByName onlyActive).Keeps :=
  (query_keeps _ _).bind fun _ => ofExcept_keeps _

theorem productsByName_meets (onlyActive : Bool) :
    (productsByName onlyActive).Meets w
      (fun ps t => t = w.tables ∧ (w.tables.listed onlyActive).mapM (·.toProduct) = .ok ps)
      (fun f => (w.tables.listed onlyActive).mapM (·.toProduct) = .error f) := by
  refine ((query_meets [] (·.listed onlyActive)).mono (fun _ _ h => h)
    fun f h => (not_unfit_nil f h).elim).bind ?_
  rintro _ v ⟨same, rfl, _⟩ _
  exact (ofExcept_meets _).mono (fun ps t h => ⟨h.1.trans same, h.2⟩) fun _ h => h

theorem archiveProduct_meets (code : String) (now : Moment) {bad : Fault → Prop} :
    (archiveProduct code now).Meets w (fun _ t => t = w.tables.archive code now) bad := by
  refine (command_meets [] _).mono ?_ ?_
  · rintro _ t ⟨h, _⟩
    cases h
    rfl
  · rintro f (h | ⟨_, v, h, _⟩)
    · exact (not_unfit_nil f h).elim
    · cases h

theorem removeProduct_meets (code : String) :
    (removeProduct code).Meets w (fun _ t => w.tables.removeProduct code = .ok t)
      (fun f => ∃ v, w.tables.removeProduct code = .error v ∧ f = .violated v) := by
  refine (command_meets [] _).mono (fun _ t h => silent_ok.mp h.1) ?_
  intro f h
  exact ((silent_breaks.mp h).resolve_left (not_unfit_nil f)).2

theorem hasOrdersIn_meets (code : String) (statuses : List OrderStatus) {bad : Fault → Prop} :
    (hasOrdersIn code statuses).Meets w
      (fun b t => t = w.tables ∧ b = w.tables.hasOrdersIn code statuses) bad :=
  (query_meets [] _).mono (fun _ _ h => ⟨h.1, h.2.1⟩) fun f h => (not_unfit_nil f h).elim

/- Orders -/

theorem readOrders_ok {t : Tables} {rows : List OrderRow} {lines : List (List OrderLine)}
    {os : List Order} (read : rows.mapM (fun r => (t.linesOf r.id).mapM (·.toLine)) = .ok lines)
    (made : (rows.zip lines).mapM (fun (r, ls) => r.toOrder ls) = .ok os) :
    List.Forall₂ (fun r o => t.readOrder r = .ok o) rows os := by
  rw [mapM_ok] at read made
  induction read generalizing os with
  | nil =>
    cases made
    exact .nil
  | cons hr _ ih =>
    cases made with
    | cons ho hos => exact .cons (readOrder_ok.mpr ⟨_, hr, ho⟩) (ih hos)

theorem readOrders_of_rows {t : Tables} {rows : List OrderRow} {os : List Order}
    (read : List.Forall₂ (fun r o => t.readOrder r = .ok o) rows os) :
    ∃ lines, rows.mapM (fun r => (t.linesOf r.id).mapM (·.toLine)) = .ok lines ∧
      (rows.zip lines).mapM (fun (r, ls) => r.toOrder ls) = .ok os := by
  have apart : ∃ lines,
      List.Forall₂ (fun r ls => (t.linesOf r.id).mapM (·.toLine) = .ok ls) rows lines ∧
      List.Forall₂ (fun (r, ls) o => OrderRow.toOrder r ls = .ok o) (rows.zip lines) os := by
    induction read with
    | nil => exact ⟨[], .nil, .nil⟩
    | cons hr _ ih =>
      obtain ⟨ls, lined, made⟩ := readOrder_ok.mp hr
      obtain ⟨lines, read, rest⟩ := ih
      exact ⟨ls :: lines, .cons lined read, .cons made rest⟩
  obtain ⟨lines, read, made⟩ := apart
  exact ⟨lines, mapM_ok.mpr read, mapM_ok.mpr made⟩

theorem readOrders_error {t : Tables} {rows : List OrderRow} {lines : List (List OrderLine)}
    {f : Fault} (read : rows.mapM (fun r => (t.linesOf r.id).mapM (·.toLine)) = .ok lines)
    (failed : (rows.zip lines).mapM (fun (r, ls) => r.toOrder ls) = .error f) :
    ∃ r ∈ rows, t.readOrder r = .error f := by
  obtain ⟨⟨r, ls⟩, member, wrong⟩ := mapM_error failed
  rw [mapM_ok] at read
  have pair : (t.linesOf r.id).mapM (·.toLine) = .ok ls := (List.forall₂_iff_zip.mp read).2 member
  exact ⟨r, (List.of_mem_zip member).1, readOrder_error.mpr (.inr ⟨ls, pair, wrong⟩)⟩

theorem ordersOf_meets (rows : List OrderRow) :
    (ordersOf rows).Meets w
      (fun os t => t = w.tables ∧ List.Forall₂ (fun r o => w.tables.readOrder r = .ok o) rows os)
      (fun f => ∃ r ∈ rows, w.tables.readOrder r = .error f) := by
  refine ((query_meets [] _).mono (fun _ _ h => h) fun f h => (not_unfit_nil f h).elim).bind ?_
  rintro _ v ⟨same, rfl, _⟩ _
  have read := ofExcept_meets (w := v)
    ((rows.map fun r => w.tables.linesOf r.id).mapM (·.mapM (·.toLine)))
  simp only [List.mapM_map] at read
  simp only [List.mapM_map]
  refine (read.mono (fun _ _ h => h) ?_).bind ?_
  · intro f failed
    obtain ⟨r, member, wrong⟩ := mapM_error failed
    exact ⟨r, member, readOrder_error.mpr (.inl wrong)⟩
  · rintro lines u ⟨same', read⟩ _
    refine (ofExcept_meets _).mono ?_ fun f failed => readOrders_error read failed
    exact fun os t h => ⟨h.1.trans (same'.trans same), readOrders_ok read h.2⟩

theorem ordersOf_keeps (rows : List OrderRow) : (ordersOf rows).Keeps :=
  (query_keeps _ _).bind fun _ => (ofExcept_keeps _).bind fun _ => ofExcept_keeps _

theorem ordersOf_ok {rows : List OrderRow} {os : List Order} {v : World} :
    ordersOf rows w = .ok os v ↔
      turn w = .ok () v ∧ List.Forall₂ (fun r o => v.tables.readOrder r = .ok o) rows os := by
  apply bind_ok.trans
  constructor
  · rintro ⟨_, u, looked, rest⟩
    obtain ⟨run, _, rfl⟩ := query_ok.mp looked
    obtain ⟨lines, v', lined, built⟩ := bind_ok.mp rest
    obtain ⟨read, rfl⟩ := ofExcept_ok.mp lined
    obtain ⟨made, rfl⟩ := ofExcept_ok.mp built
    rw [List.mapM_map] at read
    exact ⟨run, readOrders_ok read made⟩
  · rintro ⟨run, read⟩
    obtain ⟨lines, read, made⟩ := readOrders_of_rows read
    refine ⟨_, v, query_ok.mpr ⟨run, rfl, rfl⟩, bind_ok.mpr ⟨lines, v, ?_, ?_⟩⟩
    · exact ofExcept_ok.mpr ⟨by rw [List.mapM_map]; exact read, rfl⟩
    · exact ofExcept_ok.mpr ⟨made, rfl⟩

theorem orderWithCode_ok {code : String} {o : Order} {v : World}
    (run : orderWithCode code w = .ok (some o) v) :
    turn w = .ok () w.turned ∧ turn w.turned = .ok () v ∧
      ∃ r, w.tables.orderWithCode? code = some r ∧ w.tables.readOrder r = .ok o := by
  obtain ⟨row, u, looked, rest⟩ := bind_ok.mp run
  obtain ⟨first, _, rfl⟩ := query_ok.mp looked
  cases turn_ok first
  refine ⟨first, ?_⟩
  change _ at rest
  cases found : w.turned.tables.orderWithCode? code with
  | none =>
    rw [found] at rest
    cases rest
  | some r =>
    rw [found] at rest
    obtain ⟨os, v', listed, rest⟩ := bind_ok.mp rest
    obtain ⟨second, read⟩ := ordersOf_ok.mp listed
    cases turn_ok second
    cases read with
    | cons hr _ =>
      cases rest
      exact ⟨second, r, found, hr⟩

theorem orderWithCode_meets (code : String) :
    (orderWithCode code).Meets w
      (fun o t => t = w.tables ∧ w.tables.Tells (w.tables.orderWithCode? code) o)
      (fun f => ∃ r, w.tables.orderWithCode? code = some r ∧ w.tables.readOrder r = .error f) := by
  refine ((query_meets [] _).mono (fun _ _ h => h) fun f h => (not_unfit_nil f h).elim).bind ?_
  rintro row v ⟨same, rfl, _⟩ _
  cases found : w.tables.orderWithCode? code with
  | none => exact meets_pure ⟨same, .none⟩
  | some r =>
    simp only [← same]
    refine ((ordersOf_meets [r]).mono (fun _ _ h => h) ?_).bind ?_
    · rintro f ⟨r', member, wrong⟩
      cases List.mem_singleton.mp member
      exact ⟨r, rfl, wrong⟩
    · rintro os u ⟨same', read⟩ _
      exact meets_pure ⟨same', tells_head read⟩

theorem ordersWithIds_meets (ids : List Int) :
    (ordersWithIds ids).Meets w
      (fun os t => t = w.tables ∧
        List.Forall₂ (fun r o => w.tables.readOrder r = .ok o) (w.tables.ordersWithIds ids) os ∧
        ∀ id ∈ ids, fits64 id = true)
      (fun f => Unfit ids f ∨ ∃ r ∈ w.tables.ordersWithIds ids, w.tables.readOrder r = .error f) := by
  unfold ordersWithIds
  apply meets_ite
  · intro empty
    cases List.isEmpty_iff.mp empty
    refine meets_pure ⟨rfl, ?_, by simp⟩
    simp [Tables.ordersWithIds]
  · intro _
    refine ((query_meets ids _).mono (fun _ _ h => h) fun f h => .inl h).bind ?_
    rintro rows v ⟨same, rfl, fit⟩ _
    refine (ordersOf_meets _).mono ?_ ?_
    · intro os t h
      rw [same] at h
      exact ⟨h.1, h.2, fit⟩
    · intro f h
      rw [same] at h
      exact .inr h

theorem orderWithCode_keeps (code : String) : (orderWithCode code).Keeps := by
  refine (query_keeps _ _).bind fun row => ?_
  split
  · exact keeps_pure none
  · exact (ordersOf_keeps _).bind fun _ => keeps_pure _

theorem ordersWithIds_keeps (ids : List Int) : (ordersWithIds ids).Keeps := by
  unfold ordersWithIds
  split
  · exact keeps_pure _
  · exact (query_keeps _ _).bind fun _ => ordersOf_keeps _

theorem orderWithId_meets (id : Int) :
    (orderWithId id).Meets w
      (fun o t => t = w.tables ∧ w.tables.Tells (w.tables.ordersWithIds [id]).head? o ∧
        fits64 id = true)
      (fun f => Unfit [id] f ∨
        ∃ r ∈ w.tables.ordersWithIds [id], w.tables.readOrder r = .error f) := by
  refine (ordersWithIds_meets [id]).bind ?_
  rintro os v ⟨same, read, fit⟩ _
  exact meets_pure ⟨same, tells_head read, fit _ List.mem_cons_self⟩

theorem orderWithId_ok {id : Int} {r : OrderRow} {o : Order} {v : World}
    (first : turn w = .ok () w.turned) (second : turn w.turned = .ok () v)
    (fit : fits64 id = true) (only : w.tables.ordersWithIds [id] = [r])
    (read : w.tables.readOrder r = .ok o) : orderWithId id w = .ok (some o) v := by
  have listed : ordersOf [r] w.turned = .ok [o] v := by
    cases turn_ok second
    exact ordersOf_ok.mpr ⟨second, .cons read .nil⟩
  have looked : query [id] (·.ordersWithIds [id]) w = .ok [r] w.turned :=
    query_ok.mpr ⟨first, by simpa using fit, only.symm⟩
  have found : ordersWithIds [id] w = .ok [o] v := bind_ok.mpr ⟨[r], w.turned, looked, listed⟩
  exact bind_ok.mpr ⟨[o], v, found, rfl⟩

theorem orderStatus_meets (id : Int) :
    (orderStatus id).Meets w
      (fun s t => t = w.tables ∧ s = (w.tables.orderWithId? id).map (·.status))
      (Unfit [id]) :=
  (query_meets [id] _).mono (fun _ _ h => ⟨h.1, h.2.1⟩) fun _ h => h

/-- Why the lines of an order cannot be inserted: there are none, or one of them cannot be,
with the products as they are. -/
inductive Unlined (t : Tables) (id : Int) (lines : List OrderLine) : Fault → Prop where
  | none : lines = [] → Unlined t id lines (.violated (.missingValue "order_items.order_id"))
  | unfit {line : OrderLine} : line ∈ lines → fits64 line.quantity = false →
      Unlined t id lines .beyond64
  | broken {line : OrderLine} {u : Tables} {v : Violation} : line ∈ lines →
      u.products = t.products → u.insertLine id line = .error v → Unlined t id lines (.violated v)

theorem Unlined.cons {t u : Tables} {id : Int} {line : OrderLine} {lines : List OrderLine}
    {f : Fault} (h : Unlined u id lines f) (same : u.products = t.products)
    (nonempty : lines ≠ []) : Unlined t id (line :: lines) f := by
  cases h with
  | none empty => exact absurd empty nonempty
  | unfit member wrong => exact .unfit (List.mem_cons_of_mem _ member) wrong
  | broken member same' wrong =>
    exact .broken (List.mem_cons_of_mem _ member) (same'.trans same) wrong

theorem eachLine_meets (id : Int) (lines : List OrderLine) :
    (lines.forM fun line =>
        if fits64 line.quantity then change (silent fun t => t.insertLine id line)
        else throw .beyond64).Meets w
      (fun _ t => w.tables.insertLines id lines = .ok t ∧
        ∀ line ∈ lines, fits64 line.quantity = true)
      (fun f => lines ≠ [] ∧ Unlined w.tables id lines f) := by
  induction lines generalizing w with
  | nil => exact meets_pure ⟨rfl, by simp⟩
  | cons line lines ih =>
    have first : Meets (if fits64 line.quantity then change (silent fun t => t.insertLine id line)
        else throw .beyond64) w
        (fun _ t => w.tables.insertLine id line = .ok t ∧ fits64 line.quantity = true)
        (fun f => line :: lines ≠ [] ∧ Unlined w.tables id (line :: lines) f) := by
      refine meets_ite (fun fit => ?_) fun unfit => ?_
      · refine (change_meets _).mono (fun _ t h => ⟨silent_ok.mp h, fit⟩) ?_
        rintro _ ⟨v, wrong, rfl⟩
        exact ⟨List.cons_ne_nil _ _, .broken List.mem_cons_self rfl (silent_error.mp wrong)⟩
      · refine meets_throw ⟨List.cons_ne_nil _ _, ?_⟩
        exact .unfit List.mem_cons_self (by simpa using unfit)
    apply first.bind
    rintro _ v ⟨stored, fit⟩ _
    refine ih.mono ?_ ?_
    · rintro _ t ⟨rest, fits⟩
      refine ⟨?_, List.forall_mem_cons.mpr ⟨fit, fits⟩⟩
      rw [Tables.insertLines, List.foldlM_cons, stored]
      exact rest
    · rintro f ⟨nonempty, why⟩
      obtain ⟨_, row, _, inserted⟩ := insertLine_ok stored
      exact ⟨List.cons_ne_nil _ _, why.cons (by rw [inserted]) nonempty⟩

theorem insertLines_meets (id : Int) (lines : List OrderLine) :
    (insertLines id lines).Meets w
      (fun _ t => lines ≠ [] ∧ w.tables.insertLines id lines = .ok t ∧
        ∀ line ∈ lines, fits64 line.quantity = true)
      (Unlined w.tables id lines) := by
  apply turn_meets.bind
  intro _ v same _
  refine meets_guard (fun empty => .none (List.isEmpty_iff.mp empty)) fun not_empty => ?_
  refine (eachLine_meets id lines).mono ?_ ?_
  · intro _ t h
    exact ⟨fun empty => not_empty (List.isEmpty_iff.mpr empty), same ▸ h.1, h.2⟩
  · exact fun f h => same ▸ h.2

inductive Uninserted (t : Tables) (code : String) (total : Decimal) (expiresAt now : Moment)
    (lines : List OrderLine) : Fault → Prop where
  | broken {v : Violation} : t.insertOrder code total expiresAt now = .error v →
      Uninserted t code total expiresAt now lines (.violated v)
  | unlined {u : Tables} {id : Int} {f : Fault} :
      t.insertOrder code total expiresAt now = .ok (id, u) → Unlined u id lines f →
      Uninserted t code total expiresAt now lines f
  | infinite : total.isFinite = false →
      Uninserted t code total expiresAt now lines (.notFinite "Order" [("total_amount", total)])

theorem insertOrder_meets (code : String) (total : Decimal) (expiresAt : Moment)
    (lines : List OrderLine) (now : Moment) :
    (insertOrder code total expiresAt lines now).Meets w
      (fun o t => ∃ id u, w.tables.insertOrder code total expiresAt now = .ok (id, u) ∧
        lines ≠ [] ∧ u.insertLines id lines = .ok t ∧
        (∀ line ∈ lines, fits64 line.quantity = true) ∧ total.isFinite = true ∧
        o = ⟨id, code, .pending, total, expiresAt, now, none, lines⟩)
      (Uninserted w.tables code total expiresAt now lines) := by
  refine ((command_meets [] _).mono (fun _ _ h => h) ?_).bind ?_
  · rintro f (unfit | ⟨_, v, wrong, rfl⟩)
    · exact (not_unfit_nil f unfit).elim
    · exact .broken wrong
  rintro id v ⟨stored, _⟩ _
  refine ((insertLines_meets id lines).mono (fun _ _ h => h) fun _ h => .unlined stored h).bind ?_
  rintro _ u ⟨nonempty, lined, fits⟩ _
  apply meets_ite
  · exact fun finite => meets_pure ⟨id, v.tables, stored, nonempty, lined, fits, finite, rfl⟩
  · exact fun infinite => meets_throw (.infinite (by simpa using infinite))

theorem moveOrder_meets (id : Int) (expected target : OrderStatus) (now : Moment) :
    (moveOrder id expected target now).Meets w
      (fun won t => (won, t) = w.tables.moveStatus id expected target now ∧ fits64 id = true)
      (Unfit [id]) := by
  refine (command_meets [id] _).mono ?_ ?_
  · rintro won t ⟨h, fit⟩
    exact ⟨(Except.ok.inj h).symm, fit _ List.mem_cons_self⟩
  · rintro f (h | ⟨_, v, h, _⟩)
    · exact h
    · cases h

theorem moveStatus_meets (id : Int) (expected target : OrderStatus) (now : Moment) :
    (moveStatus id expected target now).Meets w
      (fun won t => (won, t) = w.tables.moveStatus id expected target now ∧ fits64 id = true)
      (Unfit [id]) := by
  intro alone
  unfold moveStatus
  refine ends_bind.mpr ((disruption_ends none (·.steals) _ ?_ fun _ => rfl).mono ?_
    fun _ _ h => h.elim)
  · exact fun l sub => { Disruptions.Leaves.refl w.disruptions with steals := sub }
  rintro stolen v ⟨found, same, lead⟩
  obtain rfl : stolen = none := found.elim (fun h => h) (alone.1 stolen)
  refine (moveOrder_meets id expected target now (lead.alone alone)).mono ?_ ?_
  · exact fun won u h => ⟨same ▸ h.1, lead.trans h.2⟩
  · exact fun f u h => ⟨h.1.imp_right lead.disturbs, lead.trans h.2⟩

end Service
end Stockroom
