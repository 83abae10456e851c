import Stockroom.Proofs.Abreast
import Stockroom.Proofs.Conservation
import Stockroom.Proofs.Editions

namespace Stockroom

open Service (fits64 taking putting Pairs)

/- Writes of rows -/

/-- What a write of stock does to the rows of its product: nothing, or it sets their stock. -/
inductive Restocking (m : Moment) : (ProductRow → ProductRow) → Prop where
  | kept : Restocking m fun r => r
  | set (n : Int) : Restocking m fun r => { r with stock := n, updatedAt := some m }

/-- What a new description does to the rows of its product: nothing, or it describes those at a
version. -/
inductive Describing (code : String) (m : Moment) : (ProductRow → ProductRow) → Prop where
  | kept : Describing code m fun r => r
  | set (version : Int) (name : String) (amount : Amount) : Describing code m fun r =>
      if r.isAt code version then
        { r with name, price := amount, version := r.version + 1, updatedAt := some m }
      else r

section

variable {m : Moment} {named : String} {f g : ProductRow → ProductRow}

theorem Restocking.face (restocks : Restocking m f) (r : ProductRow) : (f r).face = r.face := by
  cases restocks <;> rfl

theorem Restocking.code (restocks : Restocking m f) (r : ProductRow) : (f r).code = r.code :=
  congrArg (·.code) (restocks.face r)

theorem Restocking.isAt (restocks : Restocking m f) (r : ProductRow) (code : String)
    (version : Int) : (f r).isAt code version = r.isAt code version := by
  cases restocks <;> rfl

theorem Describing.keeps (describes : Describing named m g) (r : ProductRow) :
    (g r).code = r.code ∧ (g r).archived = r.archived ∧ (g r).stock = r.stock := by
  cases describes with
  | kept => exact ⟨rfl, rfl, rfl⟩
  | set version name amount =>
    dsimp only
    split <;> exact ⟨rfl, rfl, rfl⟩

theorem Restocking.comm (restocks : Restocking m f) (describes : Describing named m g)
    (r : ProductRow) : f (g r) = g (f r) := by
  cases restocks with
  | kept => rfl
  | set n =>
    cases describes with
    | kept => rfl
    | set version name amount =>
      change _ = if r.isAt named version then _ else _
      dsimp only
      split <;> rfl

/-- The two writes of rows can be made in either order, of the same product or of two. -/
theorem Restocking.swap (restocks : Restocking m f) (describes : Describing named m g)
    (t : Tables) (c d : String) :
    (t.updateProduct c f).updateProduct d g = (t.updateProduct d g).updateProduct c f := by
  unfold Tables.updateProduct
  simp only [List.map_map]
  congr 1
  refine List.map_congr_left fun r _ => ?_
  have first : (if r.code = c then f r else r).code = r.code := by
    split
    · exact restocks.code r
    · rfl
  have second : (if r.code = d then g r else r).code = r.code := by
    split
    · exact (describes.keeps r).1
    · rfl
  simp only [Function.comp_apply, first, second]
  split <;> split
  · exact (restocks.comm describes r).symm
  all_goals rfl

end

theorem restocked_faces {m : Moment} {f : ProductRow → ProductRow} (restocks : Restocking m f)
    (t : Tables) (code : String) : SameFaces t (t.updateProduct code f) := by
  refine ⟨?_, rfl, rfl⟩
  unfold Tables.updateProduct
  rw [List.map_map]
  refine List.map_congr_left fun r _ => ?_
  rw [Function.comp_apply]
  split
  · exact restocks.face r
  · rfl

/- Calls side by side -/

def Product.AlikeButStock (p q : Product) : Prop := q = { p with stock := q.stock }

theorem toProduct_face {r r' : ProductRow} (face : r'.face = r.face) :
    Agree Product.AlikeButStock r.toProduct r'.toProduct := by
  obtain ⟨_, _, _, _, _, _, _⟩ := r
  obtain ⟨_, _, _, _, _, _, _⟩ := r'
  cases face
  unfold ProductRow.toProduct
  dsimp only
  split
  · exact .ok rfl
  · exact .error

/-- The second tables are the first after a new description of a product. Rows that it changes
could be read before and can be read after it. -/
structure Described (other : String) (g : ProductRow → ProductRow) (t u : Tables) : Prop where
  after : u = t.updateProduct other g
  readable : ∀ r ∈ t.products, r.code = other →
    g r = r ∨ r.price.read.isFinite = true ∧ (g r).price.read.isFinite = true

theorem Describing.activeProduct {m : Moment} {other : String} {g : ProductRow → ProductRow}
    (describes : Describing other m g) (t : Tables) (code : String) :
    (t.updateProduct other g).activeProduct? code =
      (t.activeProduct? code).map fun r => if r.code = other then g r else r := by
  refine active_map (u := t.updateProduct other g) rfl (fun r => ?_) (fun r => ?_) code
  all_goals
    obtain ⟨code, archived, _⟩ := describes.keeps r
    split
  · exact code
  · rfl
  · exact archived
  · rfl

theorem Described.toProduct {m : Moment} {other : String} {g : ProductRow → ProductRow}
    {t u : Tables} (described : Described other g t u) (describes : Describing other m g)
    {r : ProductRow} (member : r ∈ t.products) :
    Agree (fun p q => p.code = q.code ∧ p.stock = q.stock) r.toProduct
      (if r.code = other then g r else r).toProduct := by
  split
  · rename_i here
    rcases described.readable r member here with same | ⟨before, after⟩
    · rw [same]
      exact agree_self (fun _ => ⟨rfl, rfl⟩) _
    · obtain ⟨code, _, stock⟩ := describes.keeps r
      unfold ProductRow.toProduct
      rw [if_pos before, if_pos after]
      exact .ok ⟨code.symm, stock.symm⟩
  · exact agree_self (fun _ => ⟨rfl, rfl⟩) _

namespace Service

variable {m : Moment} {s : Settings.Attempts} {code other name : String} {price : Decimal}

theorem describe_pairs {f : ProductRow → ProductRow} (restocks : Restocking m f) :
    Pairs m (fun t u => u = t.updateProduct other f) (describe s code name price)
      (describe s code name price)
      (fun p q t u => p.AlikeButStock q ∧ u = t.updateProduct other f)
      fun t u => u = t.updateProduct other f := by
  have attempt : Pairs m (fun t u => u = t.updateProduct other f) (writeDescription code name price)
      (writeDescription code name price)
      (fun p q t u => p.AlikeButStock q ∧ u = t.updateProduct other f) fun _ _ => True := by
    refine pairs_of_agree (F := (·.redescribe code name price m))
      (G := (·.redescribe code name price m))
      (fun _ _ beside => writeDescription_still beside.still beside.now)
      (fun _ _ beside => writeDescription_still beside.still' beside.now') ?_
    rintro t _ rfl
    have faces := restocked_faces restocks t other
    refine redescribe_agree ?_ fun r r' found found' => ?_
    · rw [product_update restocks.code, Option.map_eq_none_iff]
    obtain ⟨r'', known, face⟩ := faces.product found
    cases known.symm.trans found'
    refine (toProduct_face face).mono ?_
    rintro p q alike
    have archived : p.archived = q.archived := by rw [alike]
    have version : p.version = q.version := by rw [alike]
    refine ⟨archived, version, ?_, fun amount _ => ⟨?_, ?_⟩⟩
    · unfold Tables.updateProduct
      rw [List.any_map]
      congr 1
      funext r
      rw [Function.comp_apply]
      split
      · exact (restocks.isAt r code p.version).symm
      · rfl
    · rw [Product.AlikeButStock, alike]
    · rw [← version]
      have describes : Describing code m _ := .set p.version name amount
      exact restocks.swap describes t other code
  exact attempt.nested.mapFault.retrying.followed
    (fun p => (dropSnapshot_passes code).bind (passes_pure p))
    fun p => (dropSnapshot_passes code).bind (passes_pure p)

theorem mutateStock_beside {g : ProductRow → ProductRow} (describes : Describing other m g)
    {compute : Product → Except Fault Int}
    (plain : ∀ p q : Product, p.code = q.code → p.stock = q.stock → compute p = compute q) :
    Pairs m (Described other g) (mutateStock s code compute) (mutateStock s code compute)
      (fun p q t u => p.stock = q.stock ∧ u = t.updateProduct other g) (Described other g) := by
  refine mutateStock_pairs fun t u described => ?_
  refine restock_agree ?_ fun r r' found found' => ?_
  · rw [described.after, describes.activeProduct, Option.map_eq_none_iff]
  rw [described.after, describes.activeProduct, found, Option.map_some, Option.some.injEq] at found'
  subst found'
  refine (described.toProduct describes (activeProduct_mem found).1).mono ?_
  rintro p q ⟨same, stock⟩
  rw [plain p q same stock]
  refine agree_self (fun n => ⟨rfl, Iff.rfl, rfl, ?_⟩) _
  have restocks : Restocking m _ := .set n
  rw [described.after]
  exact (restocks.swap describes t code other).symm

inductive StockCall where
  | reserve (quantity : Int)
  | release (quantity : Int)
  | setStock (quantity : Int)

def StockCall.perform (s : Settings.Attempts) (code : String) :
    StockCall → Service (Option Product)
  | .reserve quantity => some <$> Service.reserve s code quantity
  | .release quantity => (fun _ => none) <$> Service.release s code quantity
  | .setStock quantity => some <$> Service.setStock s code quantity

variable (s code) in
theorem stockCall_pairs {g : ProductRow → ProductRow} (describes : Describing other m g)
    (call : StockCall) :
    Pairs m (Described other g) (call.perform s code) (call.perform s code)
      (fun p q t u => p.map (·.stock) = q.map (·.stock) ∧ u = t.updateProduct other g)
      (Described other g) := by
  cases call with
  | reserve quantity =>
    refine Pairs.map ?_
    unfold reserve
    refine pairs_guard (fun _ _ h => h) fun _ => ?_
    have taken : Pairs m (Described other g) (mutateStock s code (taking quantity))
        (mutateStock s code (taking quantity))
        (fun p q t u => p.stock = q.stock ∧ u = t.updateProduct other g) (Described other g) :=
      mutateStock_beside describes fun p q same stock => by simp only [taking, same, stock]
    refine (taken.giving fun _ _ _ _ h => ⟨congrArg some h.1, h.2⟩).followed
      (c := id) (d := id) ?_ ?_
    · exact fun p => (note_passes _ _ _).bind (passes_pure p)
    · exact fun p => (note_passes _ _ _).bind (passes_pure p)
  | release quantity =>
    refine Pairs.map ?_
    unfold release
    refine pairs_guard (fun _ _ h => h) fun _ => ?_
    have put : Pairs m (Described other g) (mutateStock s code (putting quantity))
        (mutateStock s code (putting quantity))
        (fun p q t u => p.stock = q.stock ∧ u = t.updateProduct other g) (Described other g) :=
      mutateStock_beside describes fun p q _ stock => by simp only [putting, stock]
    refine (put.giving fun _ _ _ _ h => ⟨rfl, h.2⟩).followed
      (c := fun _ => ()) (d := fun _ => ()) ?_ ?_
    · exact fun p => note_passes _ _ _
    · exact fun p => note_passes _ _ _
  | setStock quantity =>
    refine Pairs.map ?_
    unfold setStock
    refine pairs_guard (fun _ _ h => h) fun _ => ?_
    exact (mutateStock_beside describes fun _ _ _ _ => rfl).giving
      fun _ _ _ _ h => ⟨congrArg some h.1, h.2⟩

/- What one call leaves -/

variable {w : World}

theorem stockCall_writes (call : StockCall) (alone : w.Alone) :
    (call.perform s code).Ends w
      (fun _ v => w.Leads v ∧
        ∃ m ∈ w.times, ∃ f, Restocking m f ∧ v.tables = w.tables.updateProduct code f)
      (fun _ v => w.Leads v ∧ v.tables = w.tables) := by
  have written {compute : Product → Except Fault Int} {m : Moment} {p : Product} {t : Tables}
      (restocked : w.tables.restock code compute m = .ok (p, t)) :
      ∃ f, Restocking m f ∧ t = w.tables.updateProduct code f := by
    obtain ⟨_, _, _, _, stocked⟩ := restock_effect restocked
    exact ⟨_, .set p.stock, stocked.after⟩
  cases call with
  | reserve quantity =>
    have restores : (reserve s code quantity).Restores w := by
      unfold reserve
      exact restores_guard ((mutateStock_restores code _).followed fun p =>
        (note_passes _ _ _).bind (passes_pure p))
    refine ends_map.mpr (((reserve_meets code quantity alone).and restores).mono ?_ ?_)
    · rintro p v ⟨⟨⟨_, m, shows, restocked⟩, lead⟩, _⟩
      exact ⟨lead, m, shows, written restocked⟩
    · exact fun _ _ h => ⟨h.1.2, h.2⟩
  | release quantity =>
    have restores : (release s code quantity).Restores w := by
      unfold release
      exact restores_guard ((mutateStock_restores code _).followed fun p => note_passes _ _ _)
    refine ends_map.mpr (((release_meets code quantity alone).and restores).mono ?_ ?_)
    · rintro _ v ⟨⟨⟨_, p, m, shows, restocked⟩, lead⟩, _⟩
      exact ⟨lead, m, shows, written restocked⟩
    · exact fun _ _ h => ⟨h.1.2, h.2⟩
  | setStock quantity =>
    have restores : (setStock s code quantity).Restores w := by
      unfold setStock
      exact restores_guard (mutateStock_restores code _)
    refine ends_map.mpr (((setStock_meets code quantity alone).and restores).mono ?_ ?_)
    · rintro p v ⟨⟨⟨_, m, shows, restocked⟩, lead⟩, _⟩
      exact ⟨lead, m, shows, written restocked⟩
    · exact fun _ _ h => ⟨h.1.2, h.2⟩

theorem describe_writes (checked : Desk.checkPrice price = .accepted price)
    (unique : w.tables.UniqueCodes) (still : w.Still) :
    (describe s other name price).Ends w
      (fun _ v => w.Leads v ∧
        ∃ g, Describing other w.now g ∧ Described other g w.tables v.tables)
      (fun _ v => w.Leads v ∧ v.tables = w.tables) := by
  have restores : (describe s other name price).Restores w := attempts_restore other
  refine ((describe_meets other name price still.1.alone).and restores).mono ?_ ?_
  · rintro p v ⟨⟨⟨m, shows, described⟩, lead⟩, _⟩
    rw [still.times, List.mem_singleton] at shows
    subst shows
    obtain ⟨r, q, found, shown, _, _, swapped, _⟩ := Tables.redescribe_ok.mp described
    obtain ⟨amount, stored, after⟩ := swapCatalog_ok swapped
    refine ⟨lead, _, .set q.version name amount, after, fun row member named => ?_⟩
    obtain ⟨known, own⟩ := product_mem found
    cases eq_of_nodup unique member known (named.trans own.symm)
    split
    · obtain ⟨_, _, read⟩ := read_finite ((Desk.price_storable checked).finite stored)
      exact .inr ⟨(toProduct_ok shown).1, by rw [read]; rfl⟩
    · exact .inl rfl
  · exact fun _ _ h => ⟨h.1.2, h.2⟩

/- Both calls in one transaction -/

theorem transaction_pair {α : Type} (keep : Bool) (x y : Service α) (w : World) :
    transaction keep [x, y] w = .ok [result x w, result y (final x w)]
      (if keep then final y (final x w) else { final y (final x w) with tables := w.tables }) := by
  unfold transaction
  simp only [outcomes, bind, EStateM.bind, pure, EStateM.pure, outcome_eq]

theorem Ends.final {α : Type} {x : Service α} {P : World → Prop}
    (ends : x.Ends w (fun _ v => P v) fun _ v => P v) : P (final x w) := by
  unfold Ends at ends
  unfold Service.final
  cases run : x w with
  | ok a v =>
    rw [run] at ends
    exact ends
  | error f v =>
    rw [run] at ends
    exact ends

variable (s code) in
theorem stockCall_final (call : StockCall) (still : w.Still) :
    w.Leads (final (call.perform s code) w) ∧ ∃ f, Restocking w.now f ∧
      (final (call.perform s code) w).tables = w.tables.updateProduct code f := by
  refine Ends.final (P := fun v => w.Leads v ∧
    ∃ f, Restocking w.now f ∧ v.tables = w.tables.updateProduct code f) ?_
  refine (stockCall_writes call still.1.alone).mono ?_ ?_
  · rintro _ v ⟨lead, m, shows, written⟩
    rw [still.times, List.mem_singleton] at shows
    exact ⟨lead, shows ▸ written⟩
  · rintro _ v ⟨lead, same⟩
    refine ⟨lead, _, .kept, ?_⟩
    rw [same]
    simp [Tables.updateProduct]

variable (s other name) in
theorem describe_final (checked : Desk.checkPrice price = .accepted price)
    (unique : w.tables.UniqueCodes) (still : w.Still) :
    w.Leads (final (some <$> describe s other name price) w) ∧ ∃ g, Describing other w.now g ∧
      Described other g w.tables (final (some <$> describe s other name price) w).tables := by
  refine Ends.final (P := fun v => w.Leads v ∧
    ∃ g, Describing other w.now g ∧ Described other g w.tables v.tables) ?_
  refine ends_map.mpr ((describe_writes checked unique still).mono (fun _ _ h => h) ?_)
  rintro _ v ⟨lead, same⟩
  refine ⟨lead, _, .kept, ?_, fun _ _ _ => .inl rfl⟩
  rw [same]
  simp [Tables.updateProduct]

variable (s code other name) in
/-- A write of stock and a new description end the same in either order, whether or not they
succeed, and leave the same tables. -/
theorem writes_commute (checked : Desk.checkPrice price = .accepted price)
    (unique : w.tables.UniqueCodes) (still : w.Still) (call : StockCall) :
    let x : Service (Option Product) := call.perform s code
    let y : Service (Option Product) := some <$> describe s other name price
    Agree (fun p q => p.map (·.stock) = q.map (·.stock)) (result x w) (result x (final y w)) ∧
      Agree (fun p q => ∃ p' q', p = some p' ∧ q = some q' ∧ p'.AlikeButStock q')
        (result y w) (result y (final x w)) ∧
      (final y (final x w)).tables = (final x (final y w)).tables := by
  intro x y
  obtain ⟨lead, f, restocks, written⟩ := stockCall_final s code call still
  obtain ⟨lead', g, describes, described⟩ :=
    describe_final s other name checked unique still
  have beside : w.Beside w.now (fun t u => u = t.updateProduct code f) (final x w) :=
    ⟨still, lead.still still, rfl, lead.now still, written⟩
  have beside' : w.Beside w.now (Described other g) (final y w) :=
    ⟨still, lead'.still still, rfl, lead'.now still, described⟩
  obtain ⟨sameStock, onStock⟩ := (stockCall_pairs s code describes call).ended
    (fun _ _ h => h.after) beside'
  have pairs : Pairs w.now (fun t u => u = t.updateProduct code f) y y
      (fun p q t u => (∃ p' q', p = some p' ∧ q = some q' ∧ p'.AlikeButStock q') ∧
        u = t.updateProduct code f) fun t u => u = t.updateProduct code f :=
    ((describe_pairs restocks).giving fun p q _ _ h => ⟨⟨p, q, rfl, rfl, h.1⟩, h.2⟩).map
  obtain ⟨sameDescription, onDescription⟩ := pairs.ended (fun _ _ h => h) beside
  refine ⟨sameStock, sameDescription, ?_⟩
  calc (final y (final x w)).tables
      = (w.tables.updateProduct other g).updateProduct code f := by
        rw [onDescription, described.after]
    _ = (w.tables.updateProduct code f).updateProduct other g :=
        (restocks.swap describes w.tables code other).symm
    _ = (final x (final y w)).tables := by rw [onStock, written]

end Service

theorem update_keeps_stock {w : World} {e : Event} (alone : e.disruptions.Alone)
    {code name : String} {price : Decimal} (asked : e.command = .updateProduct code name price none)
    (c : String) : (w.after e).tables.stock? c = w.tables.stock? c := by
  obtain ⟨cs, makes, commits⟩ := event_makes w e alone
  rw [asked] at makes
  generalize (w.answer e).toBool = done at makes
  cases done with
  | false =>
    cases makes
    rw [commits.none]
  | true =>
    cases makes
    have one := commits.one
    generalize (w.after e).tables = t at one
    cases one with
    | describe described =>
      obtain ⟨_, _, _, _, _, _, swapped, _⟩ := Tables.redescribe_ok.mp described
      obtain ⟨_, _, rfl⟩ := swapCatalog_ok swapped
      refine stock_update (fun r => ?_) fun r => ?_
      · split <;> rfl
      · split <;> rfl

/-- Stocks and descriptions do not disturb each other. In one transaction a write of stock and a
new description end the same in either order. Over any run, the version of a product counts its
descriptions since its creation, and one more if it is archived; writes of stock leave all faces
as they are, and an update without a stock leaves all stocks as they are. -/
theorem stock_and_descriptions_are_separate {w : World} (empty : w.tables = {}) {es : List Event}
    (alone : ∀ e ∈ es, e.disruptions.Alone) :
    (∀ v : World, v.tables = (w.run es).tables → v.Still →
      ∀ (keep : Bool) (s : Settings.Attempts) (code : String) (call : Service.StockCall)
        (other name : String) (price : Decimal), Desk.checkPrice price = .accepted price →
      ∃ x y x' y' u u',
        Service.transaction keep
          [call.perform s code, some <$> Service.describe s other name price] v =
            .ok [x, y] u ∧
        Service.transaction keep
          [some <$> Service.describe s other name price, call.perform s code] v =
            .ok [y', x'] u' ∧
        Agree (fun p q => p.map (·.stock) = q.map (·.stock)) x x' ∧
        Agree (fun p q => ∃ p' q', p = some p' ∧ q = some q' ∧ p'.AlikeButStock q') y' y ∧
        u'.tables = u.tables) ∧
    (∀ r ∈ (w.run es).tables.products, ∃ before e later,
      es = before ++ e :: later ∧ w.Founds r.code before e later ∧
      r.version = ((w.run before).after e).descriptions r.code later +
        if r.archived then 1 else 0) ∧
    (∀ v : World, v.Alone → ∀ (s : Settings.Attempts) (code : String) (call : Service.StockCall),
      (call.perform s code).Ends v (fun _ u => SameFaces v.tables u.tables)
        (fun _ u => u.tables = v.tables)) ∧
    ∀ e : Event, e.disruptions.Alone → ∀ code name price,
      e.command = .updateProduct code name price none →
      ∀ c, ((w.run es).after e).tables.stock? c = (w.run es).tables.stock? c := by
  have sound : Sound w.tables := by
    rw [empty]
    exact sound_empty
  refine ⟨?_, fun r member => version_counts empty alone member, ?_, ?_⟩
  · intro v same still keep s code call other name price checked
    have unique : v.tables.UniqueCodes := by
      rw [same]
      exact (sound.run alone).codes
    obtain ⟨stocks, descriptions, tables⟩ :=
      Service.writes_commute s code other name checked unique still call
    refine ⟨_, _, _, _, _, _, Service.transaction_pair keep _ _ v,
      Service.transaction_pair keep _ _ v, stocks, descriptions, ?_⟩
    cases keep with
    | true => exact tables.symm
    | false => rfl
  · intro v undisturbed s code call
    refine (Service.stockCall_writes call undisturbed).mono ?_ fun _ _ h => h.2
    rintro _ u ⟨_, m, _, f, restocks, written⟩
    rw [written]
    exact restocked_faces restocks v.tables code
  · intro e calm code name price asked c
    exact update_keeps_stock calm asked c

def teaDescribed : List Event :=
  teaEvents ++ [.quiet 2 (.updateProduct "tea" "Green tea" (.ofCents 160) none)]

/-- One more unit of the tea is reserved before or after it is described again, and the version of
the tea counts the description that was made. -/
theorem described_tea_is_reserved :
    let v := { World.opening with tables := (World.opening.run teaDescribed).tables }
    (∃ x y x' y' u u',
      Service.transaction true [(Service.StockCall.reserve 1).perform {} "tea",
        some <$> Service.describe {} "tea" "Tea" (.ofCents 150)] v = .ok [x, y] u ∧
      Service.transaction true [some <$> Service.describe {} "tea" "Tea" (.ofCents 150),
        (Service.StockCall.reserve 1).perform {} "tea"] v = .ok [y', x'] u' ∧
      Agree (fun p q => p.map (·.stock) = q.map (·.stock)) x x' ∧
      Agree (fun p q => ∃ p' q', p = some p' ∧ q = some q' ∧ p'.AlikeButStock q') y' y ∧
      u'.tables = u.tables) ∧
    ∀ r ∈ v.tables.products, r.version = 1 ∧ ∃ before e later, teaDescribed = before ++ e :: later ∧
      World.opening.Founds r.code before e later ∧
      r.version = ((World.opening.run before).after e).descriptions r.code later +
        if r.archived then 1 else 0 := by
  intro v
  have price : Desk.checkPrice (.ofCents 150) = .accepted (.ofCents 150) := by rfl
  have alone : ∀ e ∈ teaDescribed, e.disruptions.Alone := by
    simp [teaDescribed, teaEvents, Event.quiet, quiet_nothing.alone]
  have apart := stock_and_descriptions_are_separate (w := World.opening) rfl alone
  refine ⟨apart.1 v rfl ⟨quiet_nothing, rfl⟩ true {} "tea" (.reserve 1) "tea" "Tea" (.ofCents 150)
    price, fun r member => ⟨?_, apart.2.1 r member⟩⟩
  have first : ∀ r ∈ (World.opening.run teaDescribed).tables.products, r.version = 1 := by
    decide +kernel
  exact first r member

end Stockroom
