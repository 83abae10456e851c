import Stockroom.Service.Assortment
import Stockroom.Proofs.Stock

namespace Stockroom

open Service (fits64 Deletion)

inductive Uncreated (t : Tables) (code : String) (stock : Int) (price : Decimal) :
    Fault → Prop where
  | negative : stock < 0 → Uncreated t code stock price .negativeStock
  | taken : 0 ≤ stock → (t.product? code).isSome →
      Uncreated t code stock price (.productAlreadyExists code)
  | unfit : 0 ≤ stock → t.product? code = none → fits64 stock = false →
      Uncreated t code stock price .beyond64
  | unpriced : 0 ≤ stock → t.product? code = none → Amount.ofDecimal? price = none →
      Uncreated t code stock price (.productAlreadyExists code)
  | infinite : 0 ≤ stock → t.product? code = none → price.isFinite = false →
      Uncreated t code stock price (.notFinite "Product" [("price_per_unit", price)])

/-- A new name and price for a product, and then a new stock if one is given. -/
inductive Updated (t : Tables) (code name : String) (price : Decimal) :
    Option Int → Product → Tables → Prop where
  | described {t' : Tables} {m : Moment} {p : Product} :
      t.redescribe code name price m = .ok (p, t') → Updated t code name price none p t'
  | corrected {u t' : Tables} {m m' : Moment} {p p' : Product} {quantity : Int} :
      t.redescribe code name price m = .ok (p, u) → 0 ≤ quantity →
      u.restock code (fun _ => .ok quantity) m' = .ok (p', t') →
      Updated t code name price (some quantity) { p with stock := p'.stock } t'

inductive Unrenewed (s : Settings.Attempts) (t : Tables) (code name : String) (price : Decimal) :
    Option Int → Fault → Prop where
  | undescribed {stock : Option Int} {f : Fault} :
      Service.Retried s (Service.Undescribed t code name price) f →
      Unrenewed s t code name price stock f
  | negative {quantity : Int} : quantity < 0 →
      Unrenewed s t code name price (some quantity) .negativeStock
  | unstocked {u : Tables} {m : Moment} {p : Product} {quantity : Int} {f : Fault} :
      t.redescribe code name price m = .ok (p, u) → 0 ≤ quantity →
      Service.Retried s (Service.Unstocked u code fun _ => .ok quantity) f →
      Unrenewed s t code name price (some quantity) f

/-- A product taken off offer that no order holds: archived if a finished order names it,
removed if none does. -/
inductive Withdrawn (t : Tables) (code : String) : Deletion → Tables → Prop where
  | archived {r : ProductRow} {m : Moment} : t.activeProduct? code = some r →
      t.hasOrdersIn code OrderStatus.active = false →
      t.hasOrdersIn code OrderStatus.finished = true →
      Withdrawn t code .archived (t.archive code m)
  | removed {r : ProductRow} {t' : Tables} : t.activeProduct? code = some r →
      t.hasOrdersIn code OrderStatus.active = false →
      t.hasOrdersIn code OrderStatus.finished = false → t.removeProduct code = .ok t' →
      Withdrawn t code .removed t'

/-- Why a product cannot be taken off offer. -/
inductive Kept (t : Tables) (code : String) : Fault → Prop where
  | unknown : t.activeProduct? code = none → Kept t code (.productNotFound code)
  | unreadable {r : ProductRow} {f : Fault} : t.activeProduct? code = some r →
      r.toProduct = .error f → Kept t code (f.asConflict code)
  | held : t.hasOrdersIn code OrderStatus.active = true → Kept t code (.productDeletionConflict code)
  | named {v : Violation} : t.hasOrdersIn code OrderStatus.active = false →
      t.hasOrdersIn code OrderStatus.finished = false → t.removeProduct code = .error v →
      Kept t code (.violated v)

namespace Service

variable {w : World} {s : Settings.Attempts}

theorem asTaken_fromOthers (code : String) (f : Fault) (h : f.FromOthers) :
    (asTaken code f).FromOthers := by
  cases f with
  | violated v => rcases h with h | h | h <;> cases h
  | _ => exact h

theorem any_product {t : Tables} {code : String} :
    t.products.any (fun r => r.code = code && (none : Option Bool).all (· = r.archived)) =
      (t.product? code).isSome := by
  rw [Bool.eq_iff_iff, Tables.product?, List.find?_isSome]
  simp

theorem createProduct_meets (code name : String) (stock : Int) (price : Decimal) :
    (createProduct code name stock price).Meets w
      (fun p t => w.tables.insertProduct code name stock price = .ok t ∧ fits64 stock = true ∧
        price.isFinite = true ∧ p = { code, name, stock, price })
      (Uncreated w.tables code stock price) := by
  have written (allowed : 0 ≤ stock) : Meets (do
      if ← productExists code none then throw (.productAlreadyExists code)
      mapFault (asTaken code) (insertProduct code name stock price)) w
      (fun p t => w.tables.insertProduct code name stock price = .ok t ∧ fits64 stock = true ∧
        price.isFinite = true ∧ p = { code, name, stock, price })
      (Uncreated w.tables code stock price) := by
    refine Meets.absorb ((productExists_meets code none).bind ?_)
    rintro taken v ⟨same, seen⟩ _
    rw [any_product] at seen
    refine meets_guard (fun known => ?_) fun unknown => ?_
    · rw [known] at seen
      rcases seen with known | ⟨absurd, _⟩
      · exact .inl (.taken allowed known.symm)
      · cases absurd
    have free : w.tables.product? code = none ∨ ¬w.Quiet := by
      refine seen.imp (fun missing => ?_) fun h => h.2
      simpa [missing] using unknown
    refine (mapFault_meets (insertProduct_meets code name stock price) ?_).mono ?_ ?_
    · exact asTaken_fromOthers code
    · exact fun p t h => same ▸ h
    rw [same]
    rintro _ ⟨f, (⟨rfl, n, given, unfit⟩ | ⟨_, broken, violated, rfl⟩) |
      ⟨⟨t, inserted⟩, infinite, rfl⟩, rfl⟩
    · cases List.mem_singleton.mp given
      refine free.imp (fun missing => ?_) fun noisy => ?_
      · exact .unfit allowed missing unfit
      · exact ⟨noisy, .inr (.inr rfl)⟩
    · refine .inl ?_
      cases found : w.tables.product? code with
      | some r => exact .taken allowed (by rw [found]; rfl)
      | none =>
        refine .unpriced allowed found ?_
        unfold Tables.insertProduct at violated
        cases stored : Amount.ofDecimal? price with
        | none => rfl
        | some amount => simp [stored, Int.not_lt.mpr allowed, found] at violated
    · exact .inl (.infinite allowed (insertProduct_ok inserted).2.1 infinite)
  unfold createProduct
  refine meets_guard (fun negative => .negative negative) fun allowed => ?_
  exact (atomically_meets (written (Int.not_lt.mp allowed))).followed fun p =>
    (note_passes _ _ _).bind (passes_pure p)

theorem createProduct_restores (code name : String) (stock : Int) (price : Decimal) :
    (createProduct code name stock price).Restores w := by
  unfold createProduct
  apply restores_guard
  exact atomically_restores.followed fun p => (note_passes _ _ _).bind (passes_pure p)

theorem updateProduct_meets (code name : String) (price : Decimal) (stock : Option Int) :
    (updateProduct s code name price stock).Meets w
      (fun p t => Updated w.tables code name price stock p t)
      (Unrenewed s w.tables code name price stock) := by
  refine Meets.followed (g := id) (atomically_meets ?_) fun p =>
    (dropSnapshot_passes code).bind ((note_passes _ _ _).bind (passes_pure p))
  refine ((describe_meets code name price).mono (fun _ _ h => h) fun _ h => .undescribed h).bind ?_
  rintro p v ⟨m, _, described⟩ _
  cases stock with
  | none => exact meets_pure (.described described)
  | some quantity =>
    refine ((setStock_meets code quantity).mono (fun _ _ h => h) ?_).bind ?_
    · rintro f (⟨negative, rfl⟩ | ⟨allowed, why⟩)
      · exact .negative negative
      · exact .unstocked described allowed why
    rintro p' u ⟨allowed, m', _, stocked⟩ _
    exact meets_pure (.corrected described allowed stocked)

theorem updateProduct_restores (code name : String) (price : Decimal) (stock : Option Int) :
    (updateProduct s code name price stock).Restores w :=
  Restores.followed (g := id) atomically_restores fun p =>
    (dropSnapshot_passes code).bind ((note_passes _ _ _).bind (passes_pure p))

theorem deleteProduct_meets (code : String) :
    (deleteProduct code).Meets w (fun d t => Withdrawn w.tables code d t)
      (Kept w.tables code) := by
  have written : Meets (do
      if (← mapFault (Fault.asConflict code) (lockProduct code)).isNone then
        throw (.productNotFound code)
      if ← hasOrdersIn code OrderStatus.active then throw (.productDeletionConflict code)
      if ← hasOrdersIn code OrderStatus.finished then
        archiveProduct code (← now)
        return Deletion.archived
      else
        removeProduct code
        return Deletion.removed) w
      (fun d t => Withdrawn w.tables code d t) (Kept w.tables code) := by
    refine ((mapFault_meets (lockProduct_meets code) (asConflict_fromOthers code)).mono
      (fun _ _ h => h) ?_).bind ?_
    · rintro _ ⟨f, ⟨r, found, hidden⟩, rfl⟩
      exact .unreadable found hidden
    rintro p v ⟨same, shown⟩ _
    generalize found : w.tables.activeProduct? code = row at shown
    refine meets_guard ?_ fun present => ?_
    · intro absent
      cases shown with
      | none => exact .unknown found
      | some _ => cases absent
    cases shown with
    | none => exact absurd rfl present
    | @some r p _ =>
      refine (hasOrdersIn_meets code OrderStatus.active).bind ?_
      rintro held v₁ ⟨same₁, rfl⟩ _
      rw [same] at same₁
      refine meets_guard ?_ fun free => ?_
      · exact fun held => .held (same ▸ held)
      have free : w.tables.hasOrdersIn code OrderStatus.active = false := by
        simpa [same] using free
      refine (hasOrdersIn_meets code OrderStatus.finished).bind ?_
      rintro named v₂ ⟨same₂, rfl⟩ _
      rw [same₁] at same₂
      rw [same₁]
      refine meets_ite (fun named => ?_) fun unnamed => ?_
      · apply now_meets.bind
        rintro m v₃ ⟨_, _, same₃⟩ _
        refine (archiveProduct_meets code m).bind ?_
        intro _ v₄ stored _
        apply meets_pure
        rw [stored, same₃, same₂]
        exact .archived found free named
      · have unnamed : w.tables.hasOrdersIn code OrderStatus.finished = false := by
          simpa using unnamed
        refine ((removeProduct_meets code).mono (fun _ _ h => h) ?_).bind ?_
        · rintro _ ⟨v, broken, rfl⟩
          exact .named free unnamed (same₂ ▸ broken)
        · intro _ v₃ stored _
          exact meets_pure (.removed found free unnamed (same₂ ▸ stored))
  exact (atomically_meets written).followed fun d =>
    (dropSnapshot_passes code).bind ((note_passes _ _ _).bind (passes_pure d))

theorem deleteProduct_restores (code : String) : (deleteProduct code).Restores w :=
  Restores.followed (g := id) atomically_restores fun d =>
    (dropSnapshot_passes code).bind ((note_passes _ _ _).bind (passes_pure d))

/- Queries -/

theorem lookUpProduct_keeps (code : String) : (lookUpProduct code).Keeps := by
  refine Keeps.bind (fun _ => rfl) fun p => ?_
  split
  · exact keeps_pure _
  · refine Keeps.bind ((query_keeps _ _).bind fun _ => productOf_keeps _) fun p => ?_
    split
    · exact keeps_throw _
    · exact Keeps.bind (fun _ => rfl) fun _ => keeps_pure _

theorem productHasOrdersIn_keeps (code : String) (statuses : List OrderStatus) :
    (productHasOrdersIn code statuses).Keeps := by
  refine (productExists_keeps code none).bind fun known => ?_
  split
  · exact query_keeps _ _
  · exact keeps_throw _

theorem lookUpProduct_meets (code : String) :
    (lookUpProduct code).Meets w (fun _ t => t = w.tables)
      (fun f => (w.tables.product? code = none ∧ f = .productNotFound code) ∨
        ∃ r, w.tables.product? code = some r ∧ r.toProduct = .error f) := by
  refine (snapshot_meets code).bind ?_
  intro p v same _
  cases p with
  | some p => exact meets_pure same
  | none =>
    refine ((productWithCode_meets code).mono (fun _ _ h => h) ?_).bind ?_
    · rw [same]
      exact fun f h => .inr h
    rintro p u ⟨same', shown⟩ _
    generalize found : v.tables.product? code = row at shown
    cases shown with
    | none => exact meets_throw (.inl ⟨same ▸ found, rfl⟩)
    | @some _ p _ =>
      refine ((keepSnapshot_passes p).bind (passes_pure p)).meets.mono ?_ fun _ h => h
      rintro _ _ ⟨rfl, rfl⟩
      exact same'.trans same

theorem productHasOrdersIn_meets (code : String) (statuses : List OrderStatus) :
    (productHasOrdersIn code statuses).Meets w
      (fun b t => t = w.tables ∧ (w.tables.product? code).isSome ∧
        b = w.tables.hasOrdersIn code statuses)
      (fun f => f = .productNotFound code ∧ (w.tables.product? code = none ∨ ¬w.Quiet)) := by
  refine (productExists_meets code none).bind ?_
  rintro known v ⟨same, seen⟩ _
  rw [any_product] at seen
  apply meets_ite
  · rintro rfl
    refine (hasOrdersIn_meets code statuses).mono ?_ fun _ h => h
    rintro b t ⟨same', rfl⟩
    rw [same] at same' ⊢
    refine ⟨same', ?_, rfl⟩
    rcases seen with known | ⟨absurd, _⟩
    · exact known.symm
    · cases absurd
  · intro unknown
    refine meets_throw ⟨rfl, seen.imp (fun missing => ?_) fun h => h.2⟩
    simpa [missing] using unknown

end Service
end Stockroom
