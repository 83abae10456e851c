import Stockroom.Proofs.Recency
import Stockroom.Proofs.Runs
import Stockroom.Proofs.Within

/-! Snapshots show what the tables hold.
A write drops the snapshot of its product before anything else can happen, and only a look at
a product makes a new one, from the row as it is stored. So every snapshot that is still kept,
its lifetime over or not, is what reading the tables would give. -/
namespace Stockroom

/-- The product of a code as its row shows it, read without a snapshot. -/
def Tables.showProduct (t : Tables) (code : String) : Except Fault Product :=
  match t.product? code with
  | none => .error (.productNotFound code)
  | some r => r.toProduct

namespace World

/-- Every snapshot kept, its lifetime over or not, is what its product's row shows. -/
def Coherent (w : World) : Prop :=
  ∀ e ∈ w.snapshots.entries, w.tables.showProduct e.product.code = .ok e.product

def Spares (code : String) (w v : World) : Prop :=
  w.Forgets v ∧ ∀ c, c ≠ code → v.tables.product? c = w.tables.product? c

/-- No snapshot was made, and those that are left are as true as before. -/
def Steady (w v : World) : Prop := w.Forgets v ∧ (w.Coherent → v.Coherent)

theorem coherent_of_fresh {w : World} (fresh : w.snapshots.entries = []) : w.Coherent := by
  intro e kept
  rw [fresh] at kept
  cases kept

theorem Forgets.coherent {w v : World} (forgets : w.Forgets v)
    (same : v.tables.products = w.tables.products) (coherent : w.Coherent) : v.Coherent := by
  intro e kept
  rw [Tables.showProduct, Tables.product?, same]
  exact coherent e (forgets kept)

end World

instance (code : String) : Lenient (World.Spares code) where
  products same forgets := ⟨forgets, fun c _ => by rw [Tables.product?, Tables.product?, same]⟩
  trans first second :=
    ⟨first.1.trans second.1, fun c other => (second.2 c other).trans (first.2 c other)⟩
  forgets h := h.1

instance : Lenient World.Steady where
  products same forgets := ⟨forgets, forgets.coherent same⟩
  trans first second := ⟨first.1.trans second.1, fun h => second.2 (first.2 h)⟩
  forgets h := h.1

namespace Service

variable {α β : Type} {x : Service α}

/- Writes of one product -/

/-- A step that writes one product at most, and none if it fails. -/
def Lands (code : String) (x : Service α) : Prop :=
  ∀ w, x.Ends w (fun _ v => w.Spares code v)
    (fun _ v => v.tables.products = w.tables.products ∧ w.Forgets v)

theorem lands_atomically {code : String} (h : x.Within (World.Spares code)) :
    (atomically x).Lands code := by
  intro w
  refine ((h.atomically w).and atomically_restores).mono (fun _ _ h => h.1) ?_
  exact fun _ v h => ⟨congrArg _ h.2, h.1.1⟩

theorem Lands.attempt {code : String} (g : Fault → Fault) (h : x.Within (World.Spares code)) :
    (mapFault g (nested x)).Lands code := by
  have landed : (nested x).Lands code := by
    intro w
    refine ends_bind.mpr (((turn_within (R := World.Spares code) w).and (turn_keeps w)).mono ?_ ?_)
    · rintro _ v ⟨idle, same⟩
      refine (lands_atomically h v).mono ?_ ?_
      · exact fun _ u h => Lenient.trans idle h
      · exact fun _ u h => ⟨h.1.trans (congrArg _ same), idle.1.trans h.2⟩
    · exact fun _ v h => ⟨congrArg _ h.2, h.1.1⟩
  intro w
  have ends := landed w
  unfold Ends at ends
  unfold Ends Service.mapFault
  cases run : nested x w <;> simpa only [run] using ends

theorem Lands.continueFrom {s : Settings.Attempts} {code : String} (h : x.Lands code)
    (further n : Nat) : Lands code (Attempts.continueFrom s (paused s) x further n) := by
  intro w
  induction further using Nat.strongRecOn generalizing n w with
  | ind further ih =>
    refine continueFrom_ends ((h w).mono (fun _ _ h => h) ?_)
    rintro f v ⟨same, forgets⟩
    refine ⟨fun _ => ⟨same, forgets⟩, fun _ => ⟨fun _ _ => ⟨same, forgets⟩,
      fun _ => ⟨same, forgets⟩, ?_⟩⟩
    rintro more wait rfl
    have before : w.Spares code (paused s n f wait v) := Lenient.products same forgets
    refine (ih more (by omega) (n + 1) (paused s n f wait v)).mono ?_ ?_
    · exact fun _ u h => Lenient.trans before h
    · exact fun _ u h => ⟨h.1.trans same, forgets.trans h.2⟩

/-- A write of a product is steady once the snapshot of that product is dropped. -/
theorem Lands.steady {code : String} {f : α → Service β} (h : x.Lands code)
    (rest : ∀ a, (f a).Within World.Steady) :
    (do
      let a ← x
      dropSnapshot code
      f a).Within World.Steady := by
  intro w
  refine ends_bind.mpr ((h w).mono ?_ fun _ v h => Lenient.products h.1 h.2)
  rintro a v ⟨forgets, same⟩
  have dropped : w.Steady { v with snapshots := v.snapshots.evict code } := by
    refine ⟨fun e kept => forgets (List.mem_of_mem_filter kept), fun coherent e kept => ?_⟩
    obtain ⟨known, other⟩ := List.mem_filter.mp kept
    rw [Tables.showProduct, same e.product.code (by simpa using other)]
    exact coherent e (forgets known)
  exact (rest a _).mono (fun _ _ h => Lenient.trans dropped h) fun _ _ h => Lenient.trans dropped h

/- Writes to products -/

theorem product_spared {t : Tables} {code c : String} {f : ProductRow → ProductRow}
    (keeps : ∀ r, (f r).code = r.code) (other : c ≠ code) :
    (t.updateProduct code f).product? c = t.product? c := by
  rw [product_update keeps]
  cases found : t.product? c with
  | none => rfl
  | some r => rw [Option.map_some, if_neg (fun same => other ((product_mem found).2 ▸ same))]

theorem writeLocked_spares (code : String) (compute : Product → Except Fault Int) :
    (writeLocked code compute).Within (World.Spares code) := by
  refine (lockProduct_within code).bind fun p => ?_
  split
  · exact within_throw _
  refine (ofExcept_within _).bind fun quantity => now_within.bind fun m => ?_
  refine Within.bind (command_within ?_) fun _ => within_pure _
  intro w _ t stored
  obtain ⟨_, rfl⟩ := setStock_ok (silent_ok.mp stored)
  exact ⟨List.Subset.refl _, fun c other => product_spared (fun _ => rfl) other⟩

theorem writeDescription_spares (code name : String) (price : Decimal) :
    (writeDescription code name price).Within (World.Spares code) := by
  refine (productRead_within _).bind fun p => ?_
  split
  · exact within_throw _
  refine within_guard (now_within.bind fun m => ?_)
  have swapped (version : Int) :
      (swapCatalog code version name price m).Within (World.Spares code) := by
    refine (disruption_within _ _ _).bind fun lost => ?_
    split
    · exact within_pure _
    refine command_within fun w won t stored => ?_
    cases won with
    | true =>
      obtain ⟨_, _, rfl⟩ := swapCatalog_ok stored
      refine ⟨List.Subset.refl _, fun c other => product_spared (fun r => ?_) other⟩
      split <;> rfl
    | false =>
      unfold Tables.swapCatalog at stored
      split at stored
      · split at stored <;> cases stored
      · cases stored
        exact Lenient.refl w
  refine (swapped _).bind fun won => ?_
  split
  · exact within_pure _
  · exact within_throw _

theorem mutateStock_steady (s : Settings.Attempts) (code : String)
    (compute : Product → Except Fault Int) : (mutateStock s code compute).Within World.Steady :=
  Lands.steady ((Lands.attempt _ (writeLocked_spares code compute)).continueFrom _ _)
    fun p => within_pure p

theorem describe_steady (s : Settings.Attempts) (code name : String) (price : Decimal) :
    (describe s code name price).Within World.Steady :=
  Lands.steady ((Lands.attempt _ (writeDescription_spares code name price)).continueFrom _ _)
    fun p => within_pure p

theorem reserve_steady (s : Settings.Attempts) (code : String) (quantity : Int) :
    (reserve s code quantity).Within World.Steady := by
  unfold reserve
  refine within_guard ?_
  exact (mutateStock_steady s code _).bind fun p => (note_within _ _ _).bind fun _ => within_pure p

theorem release_steady (s : Settings.Attempts) (code : String) (quantity : Int) :
    (release s code quantity).Within World.Steady := by
  unfold release
  refine within_guard ?_
  exact (mutateStock_steady s code _).bind fun _ => note_within _ _ _

theorem setStock_steady (s : Settings.Attempts) (code : String) (quantity : Int) :
    (setStock s code quantity).Within World.Steady := by
  unfold setStock
  refine within_guard ?_
  exact mutateStock_steady s code _

/- Products on offer -/

theorem insertProduct_steady (code name : String) (stock : Int) (price : Decimal) :
    (insertProduct code name stock price).Within World.Steady := by
  refine Within.bind (command_within fun w _ t stored => ?_) fun _ => ?_
  · obtain ⟨_, free, amount, _, rfl⟩ := insertProduct_ok (silent_ok.mp stored)
    refine ⟨List.Subset.refl _, fun coherent e kept => ?_⟩
    have shown := coherent e kept
    unfold Tables.showProduct Tables.product? at shown ⊢
    rw [List.find?_append]
    cases found : w.tables.products.find? (·.code = e.product.code) with
    | none =>
      rw [found] at shown
      cases shown
    | some r =>
      rw [found] at shown
      exact shown
  · split
    · exact within_pure _
    · exact within_throw _

theorem createProduct_steady (code name : String) (stock : Int) (price : Decimal) :
    (createProduct code name stock price).Within World.Steady := by
  unfold createProduct
  refine within_guard ?_
  refine Within.bind (Within.atomically ?_) fun p => ?_
  · refine (productExists_within code none).bind fun taken => within_guard ?_
    exact (insertProduct_steady code name stock price).mapFault
  · exact (note_within _ _ _).bind fun _ => within_pure p

theorem updateProduct_steady (s : Settings.Attempts) (code name : String) (price : Decimal)
    (stock : Option Int) : (updateProduct s code name price stock).Within World.Steady := by
  refine Within.bind (Within.atomically ?_) fun p => ?_
  · refine (describe_steady s code name price).bind fun p => ?_
    cases stock with
    | none => exact within_pure p
    | some quantity => exact (setStock_steady s code quantity).bind fun _ => within_pure _
  · exact (dropSnapshot_within code).bind fun _ => (note_within _ _ _).bind fun _ => within_pure p

theorem deleteProduct_steady (code : String) : (deleteProduct code).Within World.Steady := by
  refine Lands.steady (lands_atomically ?_) fun d => (note_within _ _ _).bind fun _ => within_pure d
  refine (lockProduct_within code).mapFault.bind fun p => within_guard ?_
  refine (query_within _ _).bind fun held => within_guard ?_
  refine (query_within _ _).bind fun named => ?_
  split
  · refine now_within.bind fun m => Within.bind (command_within ?_) fun _ => within_pure _
    intro w _ t stored
    cases stored
    exact ⟨List.Subset.refl _, fun c other => product_spared (fun _ => rfl) other⟩
  · refine Within.bind (command_within ?_) fun _ => within_pure _
    intro w _ t stored
    obtain ⟨_, rfl⟩ := removeProduct_ok (silent_ok.mp stored)
    refine ⟨List.Subset.refl _, fun c other => ?_⟩
    unfold Tables.product?
    rw [List.find?_filter]
    congr 1
    funext r
    by_cases here : r.code = c
    · simp [here, other]
    · simp [here]

/- Orders -/

theorem releaseLines_steady (s : Settings.Attempts) (order : Order) :
    (releaseLines s order).Within World.Steady :=
  within_forM (fun _ => (release_steady s _ _).noting) order.lines

theorem expireNow_steady (s : Settings.Attempts) (order : Order) :
    (expireNow s order).Within World.Steady := by
  refine now_within.bind fun m => (moveStatus_within _ _ _ _).bind fun won => ?_
  split
  · refine (releaseLines_steady s order).bind fun _ => ?_
    exact (note_within _ _ _).bind fun _ => within_pure _
  · exact (note_within _ _ _).bind fun _ => within_pure _

theorem reserveLines_steady (s : Settings.Attempts) (wanted : List (String × Int)) :
    (wanted.mapM fun (code, quantity) => reserveLine s code quantity).Within World.Steady := by
  refine within_mapM (fun one => ?_) wanted
  obtain ⟨code, quantity⟩ := one
  refine (reserve_steady s code quantity).noting.bind fun p => ?_
  exact (ofExcept_within _).bind fun _ => ofExcept_within _

theorem createOrder_steady (s : Settings) (wanted : List (String × Int)) :
    (createOrder s wanted).Within World.Steady := by
  have placed : (placeOrder s wanted).Within World.Steady := by
    refine (reserveLines_steady s.attempts wanted).bind fun lines => ?_
    refine now_within.bind fun m => nextOrderCode_within.bind fun code => ?_
    refine (ofExcept_within _).bind fun total => (later_within _ _).bind fun expires => ?_
    exact insertOrder_within _ _ _ _ _
  unfold createOrder
  refine within_guard ?_
  refine placed.atomically.bind fun order => (dropSnapshots_within _).bind fun _ => ?_
  exact (note_within _ _ _).bind fun _ => within_pure order

theorem leavePending_steady (s : Settings.Attempts) (exit : Exit) (code : String) :
    (leavePending s exit code).Within World.Steady := by
  have status (id : Int) : (orderStatus id).Within World.Steady := query_within _ _
  have checked (order : Order) : (checkExpiry s order exit.remark).Within World.Steady := by
    unfold checkExpiry
    refine within_guard ?_
    refine now_within.bind fun m => ?_
    split
    · exact within_pure _
    refine (expireNow_steady s order).bind fun won => ?_
    split
    · exact within_pure _
    · exact (status _).bind fun _ => within_guard (within_throw _)
  have settled (order : Order) : (settle order exit.target exit.verb).Within World.Steady := by
    unfold settle
    refine within_guard ?_
    refine now_within.bind fun m => (moveStatus_within _ _ _ _).bind fun won => ?_
    split
    · exact within_pure _
    · exact (status _).bind fun _ => within_throw _
  have left (order : Order) : (exitFrom s exit order).Within World.Steady := by
    refine (checked order).bind fun expired => ?_
    split
    · exact within_pure _
    refine (settled order).bind fun after => ?_
    dsimp only
    split
    · exact (releaseLines_steady s after).bind fun _ => within_pure _
    · exact within_pure _
  refine Within.bind (Within.atomically ((orderOf_within code).bind left)) fun result => ?_
  have told : Within World.Steady (do
      if result.1 then throw (.orderExpired s!"Order {code} has expired. {exit.remark}")
      note .orders .info (exit.entry ++ code)
      return result.2) :=
    within_guard ((note_within _ _ _).bind fun _ => within_pure _)
  dsimp only
  split
  · exact (dropSnapshots_within _).bind fun _ => told
  · exact told

theorem expireOrder_steady (s : Settings.Attempts) (id : Int) :
    (expireOrder s id).Within World.Steady := by
  have disrupted : (disruptExpiry id).Within World.Steady := by
    have taken : (expiryDisruption id).Within World.Steady := fun w =>
      (Lenient.products rfl (List.Subset.refl _) : w.Steady _)
    refine taken.bind fun disruption => ?_
    split
    · exact within_pure ()
    · exact within_throw _
    · refine now_within.bind fun m => Within.bind (Within.atomically ?_) fun _ => within_pure ()
      refine command_within fun w _ t stored => ?_
      cases stored
      exact Lenient.products rfl (List.Subset.refl _)
  have expired : (expireIfDue s id).Within World.Steady := by
    refine ((ordersWithIds_within _).bind fun _ => within_pure _).bind fun order => ?_
    split
    · exact within_pure none
    · refine Within.bind (now_within.bind fun m => ?_) fun won => ?_
      · split
        · exact within_pure _
        · exact expireNow_steady s _
      · split <;> exact within_pure _
  refine disrupted.bind fun _ => expired.atomically.bind fun order => ?_
  split
  · exact within_pure _
  · exact (dropSnapshots_within _).bind fun _ => within_pure _

theorem sweep_steady (s : Settings) : (sweep s).Within World.Steady := by
  have one (count : SweepCount) (order : Order) :
      (sweepOrder s.attempts count order).Within World.Steady := by
    refine now_within.bind fun m => ?_
    split
    · exact within_pure _
    refine (expireOrder_steady _ _).outcome.bind fun result => ?_
    split
    · exact within_pure _
    · exact within_pure _
    · exact (note_within _ _ _).bind fun _ => within_pure _
  have batch (count : SweepCount) (ids : List Int) :
      (sweepBatch s.attempts count ids).Within World.Steady :=
    (ordersWithIds_within ids).bind fun orders => within_foldlM one orders count
  have picked : (sweepIds s.expiry).Within World.Steady :=
    now_within.bind fun m => (later_within _ _).bind fun _ => (later_within _ _).bind fun _ =>
      query_within _ _
  refine picked.bind fun ids => ?_
  split
  · exact (note_within _ _ _).bind fun _ => within_pure _
  · refine (note_within _ _ _).bind fun _ => (within_foldlM batch _ _).bind fun count => ?_
    exact (note_within _ _ _).bind fun _ => within_pure count

/- Looks at products -/

theorem get_kept (r : Recent) (time : Binary64) (code : String) :
    (r.get time code).2.entries ⊆ r.entries ∧
      ∀ p, (r.get time code).1 = some p → ∃ e ∈ r.entries, e.product = p ∧ p.code = code := by
  unfold Recent.get
  cases found : Recent.find? code r.entries with
  | none => simp
  | some e =>
    obtain ⟨member, named⟩ := Recent.find?_some found
    have others : Recent.without code r.entries ⊆ r.entries := List.filter_sublist.subset
    dsimp only
    split
    · exact ⟨others, by simp⟩
    · refine ⟨List.append_subset.mpr ⟨others, by simpa using member⟩, ?_⟩
      rintro _ ⟨⟩
      exact ⟨e, member, rfl, named⟩

theorem put_kept {r : Recent} {time : Binary64} {p : Product} :
    ∀ e ∈ (r.put time p).entries, e ∈ r.entries ∨ e.product = p := by
  intro e kept
  unfold Recent.put at kept
  split at kept
  · exact .inl kept
  · rcases List.mem_append.mp (List.mem_of_mem_drop kept) with old | new
    · exact .inl (List.mem_of_mem_filter old)
    · rw [List.mem_singleton.mp new]
      exact .inr rfl

theorem showProduct_code {t : Tables} {code : String} {p : Product}
    (shown : t.showProduct code = .ok p) : p.code = code := by
  unfold Tables.showProduct at shown
  cases found : t.product? code with
  | none =>
    rw [found] at shown
    cases shown
  | some r =>
    rw [found] at shown
    obtain ⟨_, rfl⟩ := toProduct_ok shown
    exact (product_mem found).2

theorem showProduct_of_shows {t : Tables} {code : String} {p : Option Product}
    (shows : Shows (t.product? code) p) :
    t.showProduct code = p.elim (.error (.productNotFound code)) .ok := by
  unfold Tables.showProduct
  generalize t.product? code = row at shows
  cases shows with
  | none => rfl
  | some shown => exact shown

theorem productWithCode_ok {w v : World} {code : String} {p : Option Product}
    (run : productWithCode code w = .ok p v) :
    v.tables = w.tables ∧ Shows (w.tables.product? code) p := by
  obtain ⟨row, u, looked, rest⟩ := bind_ok.mp run
  obtain ⟨ran, _, rfl⟩ := query_ok.mp looked
  cases turn_ok ran
  change productOf (w.tables.product? code) _ = _ at rest
  generalize w.tables.product? code = row at rest ⊢
  cases row with
  | none =>
    cases rest
    exact ⟨rfl, .none⟩
  | some r =>
    cases shown : r.toProduct with
    | error f =>
      simp only [productOf, shown] at rest
      cases rest
    | ok q =>
      simp only [productOf, shown] at rest
      cases rest
      exact ⟨rfl, .some shown⟩

variable {w : World}

theorem snapshot_coherent (code : String) (coherent : w.Coherent) :
    (snapshot code).Ends w
      (fun p v => v.Coherent ∧ v.tables = w.tables ∧ w.Leads v ∧
        ∀ q, p = some q → w.tables.showProduct code = .ok q)
      (fun _ _ => False) := by
  obtain ⟨kept, found⟩ := get_kept w.snapshots (snapshotTime w) code
  refine ⟨fun e member => coherent e (kept member), rfl, .of_eq rfl rfl (Nat.le_refl _), ?_⟩
  intro q taken
  obtain ⟨e, member, rfl, named⟩ := found q taken
  exact named ▸ coherent e member

theorem keepSnapshot_coherent {code : String} {p : Product} (coherent : w.Coherent)
    (shown : w.tables.showProduct code = .ok p) :
    (keepSnapshot p).Ends w (fun _ v => v.Coherent) (fun _ _ => False) := by
  intro e kept
  rcases put_kept e kept with old | rfl
  · exact coherent e old
  · rw [showProduct_code shown]
    exact shown

theorem productWithCode_steady (code : String) :
    (productWithCode code).Ends w
      (fun p v => w.Steady v ∧ v.tables = w.tables ∧ Shows (w.tables.product? code) p)
      (fun _ v => w.Steady v) := by
  have shows : (productWithCode code).Ends w
      (fun p v => v.tables = w.tables ∧ Shows (w.tables.product? code) p) (fun _ _ => True) := by
    unfold Ends
    split
    · rename_i run
      exact productWithCode_ok run
    · trivial
  have steady := productRead_within (R := World.Steady) (·.product? code) w
  exact (Ends.and steady shows).mono (fun _ _ h => h) fun _ _ h => h.1

theorem lookUpProduct_coherent (code : String) (coherent : w.Coherent) :
    (lookUpProduct code).Ends w (fun _ v => v.Coherent) (fun _ v => v.Coherent) := by
  refine ends_bind.mpr ((snapshot_coherent code coherent).mono ?_ fun _ _ h => h.elim)
  rintro p u ⟨coherent, -, -, -⟩
  cases p with
  | some p => exact coherent
  | none =>
    refine ends_bind.mpr ((productWithCode_steady code).mono ?_ fun _ _ h => h.2 coherent)
    rintro p v ⟨steady, same, shows⟩
    have shown := showProduct_of_shows shows
    cases p with
    | none => exact steady.2 coherent
    | some p =>
      rw [← same] at shown
      apply ends_bind.mpr
      exact (keepSnapshot_coherent (steady.2 coherent) shown).mono (fun _ _ kept => kept)
        fun _ _ h => h.elim

theorem lookUpProduct_ends (code : String) (coherent : w.Coherent) (alone : w.Alone) :
    (lookUpProduct code).Ends w (fun p _ => w.tables.showProduct code = .ok p)
      (fun f _ => w.tables.showProduct code = .error f ∨ w.Disturbs f) := by
  refine ends_bind.mpr ((snapshot_coherent code coherent).mono ?_ fun _ _ h => h.elim)
  rintro p u ⟨-, same, lead, found⟩
  cases p with
  | some p => exact found p rfl
  | none =>
    refine ends_bind.mpr ((productWithCode_meets code (lead.alone alone)).mono ?_ ?_)
    · rintro p v ⟨⟨-, shows⟩, -⟩
      have shown := showProduct_of_shows shows
      rw [same] at shown
      cases p with
      | none => exact .inl shown
      | some p => exact shown
    · rintro f v ⟨⟨r, stored, hidden⟩ | disturbed, -⟩
      · rw [same] at stored
        exact .inl (by rw [Tables.showProduct, stored]; exact hidden)
      · exact .inr (lead.disturbs disturbed)

end Service

/- Runs -/

theorem Command.perform_coherent (s : Settings) (c : Command) {w : World} (coherent : w.Coherent) :
    (c.perform s).Ends w (fun _ v => v.Coherent) (fun _ v => v.Coherent) := by
  have steady {α : Type} {x : Service α} {g : α → Answer} (h : x.Within World.Steady) :
      (g <$> x).Ends w (fun _ v => v.Coherent) (fun _ v => v.Coherent) :=
    (h.map w).mono (fun _ _ kept => kept.2 coherent) fun _ _ kept => kept.2 coherent
  have asked (code : String) (statuses : List OrderStatus) :
      (Service.productHasOrdersIn code statuses).Within World.Steady := by
    refine (Service.productExists_within code none).bind fun known => ?_
    split
    · exact Service.query_within _ _
    · exact Service.within_throw _
  cases c with
  | createProduct code name stock price =>
    exact steady (Service.createProduct_steady code name stock price)
  | updateProduct code name price stock =>
    exact steady (Service.updateProduct_steady s.attempts code name price stock)
  | deleteProduct code => exact steady (Service.deleteProduct_steady code)
  | createOrder wanted => exact steady (Service.createOrder_steady s wanted)
  | payOrder code => exact steady (Service.leavePending_steady s.attempts .pay code)
  | cancelOrder code => exact steady (Service.leavePending_steady s.attempts .cancel code)
  | expireOrder id => exact steady (Service.expireOrder_steady s.attempts id)
  | sweep => exact steady (Service.sweep_steady s)
  | lookUpProduct code => exact Service.ends_map.mpr (Service.lookUpProduct_coherent code coherent)
  | listProducts onlyActive =>
    exact steady ((Service.query_within _ _).bind fun _ => Service.ofExcept_within _)
  | hasActiveOrders code => exact steady (asked code _)
  | hasFinishedOrders code => exact steady (asked code _)
  | lookUpOrder code => exact steady (Service.orderOf_within code)

theorem World.Coherent.after {w : World} (coherent : w.Coherent) (e : Event) :
    (w.after e).Coherent := by
  rcases event_ends (e.command.perform_coherent e.settings (w := w.facing e) coherent) with
    ⟨_, _, kept⟩ | ⟨_, _, kept⟩
  · exact kept
  · exact kept

theorem World.Coherent.run {w : World} (coherent : w.Coherent) (es : List Event) :
    (w.run es).Coherent := by
  induction es generalizing w with
  | nil => exact coherent
  | cons e es ih => exact ih (coherent.after e)

theorem toProduct_ne_notFound {r : ProductRow} {code : String} :
    r.toProduct ≠ .error (.productNotFound code) := by
  unfold ProductRow.toProduct
  dsimp only
  split <;> simp

theorem showProduct_notFound {t : Tables} {code other : String}
    (told : t.showProduct code = .error (.productNotFound other)) :
    other = code ∧ t.product? code = none := by
  unfold Tables.showProduct at told
  cases found : t.product? code with
  | none =>
    rw [found] at told
    cases told
    exact ⟨rfl, rfl⟩
  | some r =>
    rw [found] at told
    exact (toProduct_ne_notFound told).elim

/-- A look is answered as the row of the product would answer it, unless others are in the way. -/
theorem answer_of_look {w : World} {e : Event} {code : String} (coherent : w.Coherent)
    (alone : e.disruptions.Alone) (asked : e.command = .lookUpProduct code) :
    w.answer e = (w.tables.showProduct code).map .product ∨
      ∃ f, w.answer e = .error f ∧ (w.facing e).Disturbs f := by
  have ends : (e.command.perform e.settings).Ends (w.facing e)
      (fun a _ => (w.tables.showProduct code).map .product = .ok a)
      (fun f _ => w.tables.showProduct code = .error f ∨ (w.facing e).Disturbs f) := by
    rw [asked]
    refine Service.ends_map.mpr ?_
    refine (Service.lookUpProduct_ends (w := w.facing e) code coherent alone).mono ?_ ?_
    · intro p _ shown
      change w.tables.showProduct code = _ at shown
      rw [shown]
      rfl
    · exact fun _ _ h => h
  rcases event_ends ends with ⟨a, told, shown⟩ | ⟨f, told, hidden | disturbed⟩
  · exact .inl (told.trans shown.symm)
  · left
    rw [told, hidden]
    rfl
  · exact .inr ⟨f, told, disturbed⟩

/-- Whatever a run does, in whatever order, every snapshot that is left shows the row of its
product in full. So a look at a product is answered from its row, and says that there is no
such product exactly when there is no row; a fault that others cause is all that can come in
between. -/
theorem snapshots_stay_current {w : World} (fresh : w.snapshots.entries = []) (es : List Event) :
    (∀ kept ∈ (w.run es).snapshots.entries,
      ∃ r, (w.run es).tables.product? kept.product.code = some r ∧
        r.toProduct = .ok kept.product) ∧
    ∀ e code, e.disruptions.Alone → e.command = .lookUpProduct code →
      ((w.run es).answer e = ((w.run es).tables.showProduct code).map .product ∨
        ∃ f, (w.run es).answer e = .error f ∧ f.FromOthers ∧ ¬e.disruptions.Quiet) ∧
      (∀ other, (w.run es).answer e = .error (.productNotFound other) →
        other = code ∧ (w.run es).tables.product? code = none) ∧
      (e.disruptions.Quiet → (w.run es).tables.product? code = none →
        (w.run es).answer e = .error (.productNotFound code)) := by
  have start : w.Coherent := by
    intro kept member
    rw [fresh] at member
    cases member
  have coherent := start.run es
  refine ⟨?_, ?_⟩
  · intro kept member
    have shown := coherent kept member
    unfold Tables.showProduct at shown
    cases found : (w.run es).tables.product? kept.product.code with
    | none =>
      rw [found] at shown
      cases shown
    | some r =>
      rw [found] at shown
      exact ⟨r, rfl, shown⟩
  · intro e code alone asked
    have answered := answer_of_look coherent alone asked
    refine ⟨answered.imp_right ?_, ?_, ?_⟩
    · rintro ⟨f, told, disturbed, others⟩
      exact ⟨f, told, others, disturbed⟩
    · intro other told
      rcases answered with shown | ⟨f, failed, -, others⟩
      · rw [told] at shown
        cases hidden : (w.run es).tables.showProduct code with
        | ok p =>
          rw [hidden] at shown
          cases shown
        | error f =>
          rw [hidden] at shown
          cases shown
          exact showProduct_notFound hidden
      · rw [told] at failed
        cases failed
        rcases others with kind | kind | kind <;> cases kind
    · intro quiet missing
      rcases answered with shown | ⟨f, failed, disturbed, -⟩
      · rw [shown, Tables.showProduct, missing]
        rfl
      · exact (disturbed quiet).elim

def teaWatched : List Event :=
  [.quiet 0 (.createProduct "tea" "Tea" 5 (.ofCents 150)), .quiet 1 (.lookUpProduct "tea"),
    .quiet 2 (.createOrder [("tea", 2)]), .quiet 3 (.lookUpProduct "tea")]

/-- The snapshot of the first look is gone with the order, that of the second is kept. -/
theorem watched_tea_shows_order :
    (World.opening.run teaWatched).snapshots.entries.map (·.product.stock) = [3] ∧
      (World.opening.run teaWatched).answer (.quiet 4 (.lookUpProduct "tea")) =
        .ok (.product ⟨"tea", "Tea", 3, .ofCents 150, false, 0⟩) := by
  refine ⟨by decide +kernel, ?_⟩
  have current := (snapshots_stay_current (w := World.opening) rfl teaWatched).2
  obtain ⟨answered, -, -⟩ := current (.quiet 4 (.lookUpProduct "tea")) "tea" quiet_nothing.alone rfl
  rcases answered with shown | ⟨_, _, _, disturbed⟩
  · rw [shown]
    decide +kernel
  · exact (disturbed quiet_nothing).elim

end Stockroom
