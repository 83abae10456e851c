import Stockroom.Proofs.Orders
import Stockroom.Proofs.Writes

namespace Stockroom

namespace World

def Forgets (w v : World) : Prop := v.snapshots.entries ⊆ w.snapshots.entries

theorem Forgets.trans {u v w : World} (first : u.Forgets v) (second : v.Forgets w) : u.Forgets w :=
  List.Subset.trans second first

end World

/-- A relation between the states before and after a step, which tolerates that orders are
written and snapshots dropped. -/
class Lenient (R : World → World → Prop) : Prop where
  products : ∀ {w v : World}, v.tables.products = w.tables.products → w.Forgets v → R w v
  trans : ∀ {u v w : World}, R u v → R v w → R u w
  forgets : ∀ {w v : World}, R w v → w.Forgets v

theorem Lenient.refl {R : World → World → Prop} [Lenient R] (w : World) : R w w :=
  products rfl (List.Subset.refl _)

namespace Service

variable {α β : Type} {R : World → World → Prop} [Lenient R] {x : Service α}

/-- Wherever a step ends, its state is related to the one it began in. -/
def Within (R : World → World → Prop) (x : Service α) : Prop :=
  ∀ w, x.Ends w (fun _ v => R w v) (fun _ v => R w v)

/- Steps as a whole -/

theorem within_pure (a : α) : (pure a : Service α).Within R := fun w => Lenient.refl w

theorem within_throw (f : Fault) : (throw f : Service α).Within R := fun w => Lenient.refl w

theorem Within.bind {f : α → Service β} (first : x.Within R) (second : ∀ a, (f a).Within R) :
    (x >>= f).Within R := by
  intro w
  refine ends_bind.mpr ((first w).mono ?_ fun _ _ h => h)
  intro a v before
  exact (second a v).mono (fun _ _ h => Lenient.trans before h)
    fun _ _ h => Lenient.trans before h

omit [Lenient R] in
theorem Within.map {g : α → β} (h : x.Within R) : (g <$> x).Within R := fun w => ends_map.mpr (h w)

theorem within_guard {c : Prop} [Decidable c] {f : Fault} {rest : Unit → Service α}
    (passed : (rest ()).Within R) : (if c then (throw f >>= rest) else rest ()).Within R := by
  split
  · exact (within_throw f).bind fun _ => passed
  · exact passed

theorem within_forM {f : β → Service Unit} (each : ∀ b, (f b).Within R) (bs : List β) :
    (bs.forM f).Within R := by
  induction bs with
  | nil => exact within_pure ()
  | cons b bs ih => exact (each b).bind fun _ => ih

theorem within_mapM {f : β → Service α} (each : ∀ b, (f b).Within R) (bs : List β) :
    (bs.mapM f).Within R := by
  induction bs with
  | nil => exact within_pure []
  | cons b bs ih =>
    rw [List.mapM_cons]
    exact (each b).bind fun _ => ih.bind fun _ => within_pure _

theorem within_foldlM {f : α → β → Service α} (each : ∀ a b, (f a b).Within R) (bs : List β)
    (a : α) : (bs.foldlM f a).Within R := by
  induction bs generalizing a with
  | nil => exact within_pure a
  | cons b bs ih =>
    rw [List.foldlM_cons]
    exact (each a b).bind ih

omit [Lenient R] in
theorem Within.outcome (h : x.Within R) : (outcome x).Within R := by
  intro w
  have ends := h w
  unfold Ends at ends
  unfold Ends Service.outcome
  cases run : x w <;> simpa only [run] using ends

omit [Lenient R] in
theorem Within.mapFault {g : Fault → Fault} (h : x.Within R) : (mapFault g x).Within R := by
  intro w
  have ends := h w
  unfold Ends at ends
  unfold Ends Service.mapFault
  cases run : x w <;> simpa only [run] using ends

/- Steps that write to no product -/

theorem note_within (writer : Journal.Writer) (level : Journal.Level) (message : String) :
    (note writer level message).Within R := fun _ => Lenient.products rfl (List.Subset.refl _)

theorem Within.noting {writer : Journal.Writer} {text : Fault → String} (h : x.Within R) :
    (noting writer text x).Within R := by
  refine h.outcome.bind fun result => ?_
  cases result with
  | ok a => exact within_pure a
  | error f => exact (note_within _ _ _).bind fun _ => within_throw f

theorem ofExcept_within (e : Except Fault α) : (ofExcept e).Within R := by
  cases e with
  | ok a => exact within_pure a
  | error f => exact within_throw f

theorem disruption_within {γ : Type} (absent : γ) (read : Disruptions → List γ)
    (write : Disruptions → List γ → Disruptions) : (disruption absent read write).Within R :=
  fun _ => Lenient.products rfl (List.Subset.refl _)

theorem refused_within (read : Disruptions → List (Option Refusal))
    (write : Disruptions → List (Option Refusal) → Disruptions) :
    (disruption none read write >>= refuse).Within R := by
  refine (disruption_within _ _ _).bind fun r => ?_
  cases r with
  | none => exact within_pure ()
  | some r => exact within_throw _

theorem turn_within : turn.Within R := by
  have free : unlocked.Within R := by
    refine Within.bind (fun w => Lenient.refl w : (get : Service World).Within R) fun w => ?_
    split
    · exact within_throw _
    · exact within_pure _
  exact free.bind fun _ => refused_within _ _

theorem turnWith_within (numbers : List Int) : (turnWith numbers).Within R := by
  refine turn_within.bind fun _ => ?_
  split
  · exact within_throw _
  · exact within_pure _

theorem query_within (numbers : List Int) (read : Tables → α) : (query numbers read).Within R :=
  (turnWith_within numbers).bind fun _ => fun w => Lenient.refl w

theorem now_within : now.Within R := by
  intro w
  rw [Ends]
  cases ticks : w.disruptions.ticks with
  | nil =>
    rw [now_idle ticks]
    exact Lenient.refl w
  | cons m rest =>
    rw [now_ticks ticks]
    exact Lenient.products rfl (List.Subset.refl _)

theorem later_within (m : Moment) (span : Span) : (later m span).Within R := by
  unfold later
  split
  · exact within_pure _
  · exact within_throw _

theorem nextOrderCode_within : nextOrderCode.Within R := fun _ =>
  Lenient.products rfl (List.Subset.refl _)

theorem dropSnapshot_within (code : String) : (dropSnapshot code).Within R := fun _ =>
  Lenient.products rfl List.filter_sublist.subset

theorem dropSnapshots_within (codes : List String) : (dropSnapshots codes).Within R :=
  within_forM dropSnapshot_within codes

theorem productRead_within (read : Tables → Option ProductRow) :
    (query [] read >>= productOf).Within R := by
  refine (query_within _ _).bind fun row => ?_
  cases row with
  | none => exact within_pure none
  | some r => exact (ofExcept_within _).map

theorem lockProduct_within (code : String) : (lockProduct code).Within R := by
  unfold lockProduct
  rw [← bind_assoc]
  exact (refused_within _ _).bind fun _ => productRead_within _

theorem productExists_within (code : String) (archived : Option Bool) :
    (productExists code archived).Within R := by
  refine (disruption_within _ _ _).bind fun lost => ?_
  split
  · exact within_pure false
  · exact query_within _ _

theorem ordersOf_within (rows : List OrderRow) : (ordersOf rows).Within R :=
  (query_within _ _).bind fun _ => (ofExcept_within _).bind fun _ => ofExcept_within _

theorem ordersWithIds_within (ids : List Int) : (ordersWithIds ids).Within R := by
  unfold ordersWithIds
  split
  · exact within_pure _
  · exact (query_within _ _).bind fun _ => ordersOf_within _

theorem orderOf_within (code : String) : (orderOf code).Within R := by
  have found : (orderWithCode code).Within R := by
    refine (query_within _ _).bind fun row => ?_
    split
    · exact within_pure none
    · exact (ordersOf_within _).bind fun _ => within_pure _
  refine found.bind fun order => ?_
  split
  · exact within_throw _
  · exact within_pure _

/- Writes -/

theorem change_within {f : Tables → Except Violation (α × Tables)}
    (h : ∀ w a t, f w.tables = .ok (a, t) → R w { w with tables := t }) : (change f).Within R := by
  intro w
  unfold Ends change
  cases run : f w.tables with
  | ok r => exact h w r.1 r.2 run
  | error v => exact Lenient.refl w

theorem command_within {numbers : List Int} {f : Tables → Except Violation (α × Tables)}
    (h : ∀ w a t, f w.tables = .ok (a, t) → R w { w with tables := t }) :
    (command numbers f).Within R :=
  (turnWith_within numbers).bind fun _ => change_within h

theorem moveStatus_within (id : Int) (expected target : OrderStatus) (m : Moment) :
    (moveStatus id expected target m).Within R := by
  have moved (target : OrderStatus) : (moveOrder id expected target m).Within R := by
    refine command_within fun w a t stored => ?_
    cases stored
    exact Lenient.products rfl (List.Subset.refl _)
  refine (disruption_within _ _ _).bind fun stolen => ?_
  cases stolen with
  | none => exact moved target
  | some stolen => exact (moved stolen).bind fun _ => moved target

theorem insertOrder_within (code : String) (total : Decimal) (expiresAt m : Moment)
    (lines : List OrderLine) : (insertOrder code total expiresAt lines m).Within R := by
  refine Within.bind (command_within ?_) fun id => ?_
  · intro w id t inserted
    obtain ⟨_, _, _, _, rfl⟩ := insertOrder_ok inserted
    exact Lenient.products rfl (List.Subset.refl _)
  have lined : (insertLines id lines).Within R := by
    refine turn_within.bind fun _ => within_guard (within_forM (fun line => ?_) lines)
    split
    · refine change_within fun w _ t inserted => ?_
      obtain ⟨_, _, _, rfl⟩ := insertLine_ok (silent_ok.mp inserted)
      exact Lenient.products rfl (List.Subset.refl _)
    · exact within_throw _
  refine lined.bind fun _ => ?_
  split
  · exact within_pure _
  · exact within_throw _

/- Transactions -/

omit [Lenient R] in
theorem Within.closing [Lenient R] (h : x.Within R) : (closing x).Within R :=
  h.bind fun _ => turn_within.bind fun _ => within_pure _

/-- A transaction that fails puts the products back and may have dropped snapshots. -/
theorem Within.atomically (h : x.Within R) : (atomically x).Within R := by
  intro w
  have ends := h.closing w
  unfold Ends at ends
  unfold Ends Service.atomically
  cases run : Service.closing x w with
  | ok a v => simpa only [run] using ends
  | error f v =>
    simp only [run] at ends ⊢
    have forgets : w.Forgets v := Lenient.forgets ends
    exact Lenient.products rfl forgets

end Service
end Stockroom
