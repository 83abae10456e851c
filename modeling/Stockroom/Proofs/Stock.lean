import Stockroom.Service.Stock
import Stockroom.Proofs.Rows

namespace Stockroom

open Service (fits64)

/- One undisturbed attempt, as a function of the tables -/

namespace Tables

/-- A new stock for the active product of a code, computed from that product. -/
def restock (t : Tables) (code : String) (compute : Product → Except Fault Int) (now : Moment) :
    Except Fault (Product × Tables) := do
  match t.activeProduct? code with
  | none => .error (.productNotFound code)
  | some r =>
    let p ← r.toProduct
    let quantity ← compute p
    if fits64 quantity then
      let t' ← (t.setStock code quantity now).mapError .violated
      return ({ p with stock := quantity }, t')
    else .error .beyond64

def redescribe (t : Tables) (code name : String) (price : Decimal) (now : Moment) :
    Except Fault (Product × Tables) := do
  match t.product? code with
  | none => .error (.productNotFound code)
  | some r =>
    let p ← r.toProduct
    if p.archived then .error (.productNotFound code)
    else if fits64 p.version then
      let (swapped, t') ← (t.swapCatalog code p.version name price now).mapError .violated
      if swapped then return ({ p with name, price, version := p.version + 1 }, t')
      else .error (.changedElsewhere code)
    else .error .beyond64

theorem restock_ok {t t' : Tables} {code : String} {compute : Product → Except Fault Int}
    {now : Moment} {p : Product} :
    t.restock code compute now = .ok (p, t') ↔
      ∃ r q quantity, t.activeProduct? code = some r ∧ r.toProduct = .ok q ∧
        compute q = .ok quantity ∧ fits64 quantity = true ∧
        t.setStock code quantity now = .ok t' ∧ p = { q with stock := quantity } := by
  unfold restock
  cases found : t.activeProduct? code with
  | none => simp
  | some r =>
    cases shown : r.toProduct with
    | error f => simp [shown, bind, Except.bind]
    | ok q =>
      cases computed : compute q with
      | error f => simp [shown, computed, bind, Except.bind]
      | ok quantity =>
        by_cases fit : fits64 quantity
        · cases stored : t.setStock code quantity now with
          | error v => simp [shown, computed, fit, stored, bind, Except.bind, Except.mapError]
          | ok u =>
            simp only [shown, computed, fit, stored, bind, Except.bind, Except.mapError, pure,
              Except.pure, if_true, Except.ok.injEq, Prod.mk.injEq, Option.some.injEq]
            constructor
            · rintro ⟨rfl, rfl⟩
              exact ⟨r, q, quantity, rfl, shown, computed, fit, stored, rfl⟩
            · rintro ⟨r', q', quantity', rfl, shown', computed', _, stored', rfl⟩
              rw [shown, Except.ok.injEq] at shown'
              subst shown'
              rw [computed, Except.ok.injEq] at computed'
              subst computed'
              rw [stored, Except.ok.injEq] at stored'
              exact ⟨rfl, stored'⟩
        · simp [shown, computed, fit, bind, Except.bind]

inductive Unwritten (t : Tables) (code : String) (compute : Product → Except Fault Int) :
    Fault → Prop where
  | unknown : t.activeProduct? code = none → Unwritten t code compute (.productNotFound code)
  | unreadable {r : ProductRow} {f : Fault} : t.activeProduct? code = some r →
      r.toProduct = .error f → Unwritten t code compute f
  | uncomputed {r : ProductRow} {p : Product} {f : Fault} : t.activeProduct? code = some r →
      r.toProduct = .ok p → compute p = .error f → Unwritten t code compute f
  | unfit {r : ProductRow} {p : Product} {quantity : Int} : t.activeProduct? code = some r →
      r.toProduct = .ok p → compute p = .ok quantity → fits64 quantity = false →
      Unwritten t code compute .beyond64
  | broken {r : ProductRow} {p : Product} {quantity : Int} {m : Moment} {v : Violation} :
      t.activeProduct? code = some r → r.toProduct = .ok p → compute p = .ok quantity →
      t.setStock code quantity m = .error v → Unwritten t code compute (.violated v)

theorem restock_error {t : Tables} {code : String} {compute : Product → Except Fault Int}
    {now : Moment} {f : Fault} (failed : t.restock code compute now = .error f) :
    Unwritten t code compute f := by
  unfold restock at failed
  cases found : t.activeProduct? code with
  | none =>
    simp only [found] at failed
    cases failed
    exact .unknown found
  | some r =>
    simp only [found] at failed
    cases shown : r.toProduct with
    | error g =>
      simp only [shown, bind, Except.bind] at failed
      cases failed
      exact .unreadable found shown
    | ok p =>
      simp only [shown, bind, Except.bind] at failed
      cases computed : compute p with
      | error g =>
        simp only [computed] at failed
        cases failed
        exact .uncomputed found shown computed
      | ok quantity =>
        simp only [computed] at failed
        cases fit : fits64 quantity with
        | false =>
          simp only [fit] at failed
          cases failed
          exact .unfit found shown computed fit
        | true =>
          cases stored : t.setStock code quantity now with
          | error v =>
            simp only [fit, stored, Except.mapError] at failed
            cases failed
            exact .broken found shown computed stored
          | ok u =>
            simp only [fit, stored, Except.mapError] at failed
            cases failed

theorem redescribe_ok {t t' : Tables} {code name : String} {price : Decimal} {now : Moment}
    {p : Product} :
    t.redescribe code name price now = .ok (p, t') ↔
      ∃ r q, t.product? code = some r ∧ r.toProduct = .ok q ∧ q.archived = false ∧
        fits64 q.version = true ∧ t.swapCatalog code q.version name price now = .ok (true, t') ∧
        p = { q with name, price, version := q.version + 1 } := by
  unfold redescribe
  cases found : t.product? code with
  | none => simp
  | some r =>
    cases shown : r.toProduct with
    | error f => simp [shown, bind, Except.bind]
    | ok q =>
      cases archived : q.archived with
      | true => simp [shown, archived, bind, Except.bind]
      | false =>
        by_cases fit : fits64 q.version
        · cases stored : t.swapCatalog code q.version name price now with
          | error v => simp [shown, archived, fit, stored, bind, Except.bind, Except.mapError]
          | ok u =>
            obtain ⟨swapped, u⟩ := u
            cases swapped with
            | false => simp [shown, archived, fit, stored, bind, Except.bind, Except.mapError]
            | true =>
              simp [shown, archived, fit, stored, bind, Except.bind, Except.mapError, pure,
                Except.pure]
              exact ⟨fun h => ⟨h.2, h.1.symm⟩, fun h => ⟨h.2.symm, h.1⟩⟩
        · simp [shown, archived, fit, bind, Except.bind]

end Tables

/- Attempts -/

namespace Attempts

theorem longestWait_kind {s : Settings.Attempts} {f : Fault}
    (h : longestWait s = .error f) : f.kind = .outOfRange := by
  simp only [longestWait] at h
  split at h
  · cases h
  · cases h
    rfl

theorem growth_kind {s : Settings.Attempts} {n : Int} {f : Fault}
    (h : growth s n = .error f) : f.kind = .outOfRange := by
  simp only [growth] at h
  split at h
  · cases h
    rfl
  · split at h
    · cases h
      rfl
    · cases h

theorem waitAfter_kind {s : Settings.Attempts} {n : Int} {f : Fault}
    (h : waitAfter s n = .error f) : f.kind = .outOfRange := by
  unfold waitAfter at h
  cases grown : growth s n with
  | error g =>
    simp only [grown, bind, Except.bind, Except.error.injEq] at h
    exact growth_kind (h ▸ grown)
  | ok factor =>
    simp only [grown, bind, Except.bind] at h
    split at h
    · cases h
      rfl
    · split at h
      · cases h
      · exact longestWait_kind h

end Attempts

namespace Service

variable {α : Type} {w : World} {x : Service α}

/-- The fault of a step, or that of the wait after an attempt that failed with such a fault. -/
def Retried (s : Settings.Attempts) (bad : Fault → Prop) (f : Fault) : Prop :=
  bad f ∨ ∃ g, bad g ∧ Attempts.mayRetry s g = true ∧
    ∃ n : Nat, 1 ≤ n ∧ n ≤ s.maxAttempts.1 ∧ Attempts.waitAfter s n = .error f

def paused (s : Settings.Attempts) (n : Nat) (f : Fault) (wait : Binary64) (w : World) : World :=
  { w with waits := w.waits ++ [wait], journal := w.journal ++ [Attempts.warning s n f wait] }

theorem continueFrom_ends {s : Settings.Attempts} {further n : Nat}
    {good : α → World → Prop} {bad : Fault → World → Prop}
    (first : x.Ends w good fun f v =>
      (Attempts.mayRetry s f = false → bad f v) ∧
      (Attempts.mayRetry s f = true →
        (∀ g, Attempts.waitAfter s n = .error g → bad g v) ∧
        (further = 0 → bad f v) ∧
        ∀ more wait, further = more + 1 →
          Ends (Attempts.continueFrom s (paused s) x more (n + 1)) (paused s n f wait v) good bad)) :
    Ends (Attempts.continueFrom s (paused s) x further n) w good bad := by
  unfold Ends at first
  unfold Ends
  rw [Attempts.continueFrom.eq_def]
  cases run : x w with
  | ok a v =>
    simp only [run] at first ⊢
    exact first
  | error f v =>
    simp only [run] at first ⊢
    cases again : Attempts.mayRetry s f with
    | false => exact first.1 again
    | true =>
      obtain ⟨onWait, onLast, onMore⟩ := first.2 again
      simp only [if_true]
      cases after : Attempts.waitAfter s n with
      | error g => exact onWait g after
      | ok wait =>
        cases further with
        | zero => exact onLast rfl
        | succ more => exact onMore more wait rfl

theorem continueFrom_meets {s : Settings.Attempts} {base : World} {good : α → Tables → Prop}
    {bad : Fault → Prop}
    (attempt : ∀ v : World, v.tables = base.tables → base.Leads v → x.Meets v good bad)
    (restores : ∀ v : World, v.tables = base.tables → x.Restores v) (further n : Nat)
    (first : 1 ≤ n) (within : n + further ≤ s.maxAttempts.1) (same : w.tables = base.tables)
    (lead : base.Leads w) :
    Meets (Attempts.continueFrom s (paused s) x further n) w good (Retried s bad) := by
  intro alone
  induction further using Nat.strongRecOn generalizing n w with
  | ind further ih =>
    refine continueFrom_ends (((attempt w same lead alone).and (restores w same)).mono
      (fun _ _ h => h.1) ?_)
    rintro f v ⟨⟨account, onward⟩, kept⟩
    have ended := account.imp_left (fun h => (.inl h : Retried s bad f))
    refine ⟨fun _ => ⟨ended, onward⟩, fun again => ⟨?_, fun _ => ⟨ended, onward⟩, ?_⟩⟩
    · intro g failed
      refine ⟨account.imp ?_ ?_, onward⟩
      · exact fun h => .inr ⟨f, h, again, n, first, by omega, failed⟩
      · exact fun h => ⟨h.1, .inr (.inr (Attempts.waitAfter_kind failed))⟩
    · rintro more wait rfl
      have onward' : w.Leads (paused s n f wait v) := onward.trans (.of_eq rfl rfl (Nat.le_refl _))
      have rest := ih more (by omega) (w := paused s n f wait v) (n + 1) (by omega) (by omega)
        (kept.trans same) (lead.trans onward') (onward'.alone alone)
      apply rest.mono
      · exact fun a u h => ⟨h.1, onward'.trans h.2⟩
      · exact fun g u h => ⟨h.1.imp_right onward'.disturbs, onward'.trans h.2⟩

theorem continueFrom_restores {s : Settings.Attempts}
    (attempt : ∀ v : World, v.tables = w.tables → x.Restores v) (further n : Nat) :
    Restores (Attempts.continueFrom s (paused s) x further n) w := by
  induction further using Nat.strongRecOn generalizing n w with
  | ind further ih =>
    refine continueFrom_ends ((attempt w rfl).mono (fun _ _ h => h) ?_)
    rintro f v kept
    refine ⟨fun _ => kept, fun _ => ⟨fun _ _ => kept, fun _ => kept, ?_⟩⟩
    rintro more wait rfl
    have rest := ih more (Nat.lt_succ_self more) (w := paused s n f wait v)
      (fun u same => attempt u (same.trans kept)) (n + 1)
    exact rest.mono (fun _ _ h => h) fun _ _ h => h.trans kept

section Retrying

variable {s : Settings.Attempts} {good : α → Tables → Prop} {bad : Fault → Prop}

theorem retrying_meets
    (attempt : ∀ v : World, v.tables = w.tables → w.Leads v → x.Meets v good bad)
    (restores : ∀ v : World, v.tables = w.tables → x.Restores v) :
    (retrying s x).Meets w good (Retried s bad) := by
  have positive := s.maxAttempts.2
  exact continueFrom_meets attempt restores _ 1 (Nat.le_refl 1) (by omega) rfl (.refl w)

end Retrying

variable {s : Settings.Attempts}

theorem attempts_restore {x : Service Product} (code : String) :
    Restores (do
        let p ← retrying s (mapFault (Fault.asConflict code) (nested x))
        dropSnapshot code
        return p) w := by
  have stored : (retrying s (mapFault (Fault.asConflict code) (nested x))).Restores w :=
    continueFrom_restores (fun _ _ => mapFault_restores nested_restores) _ 1
  exact stored.followed fun p => (dropSnapshot_passes code).bind (passes_pure p)

/-- Attempts at a write of a product do what one undisturbed attempt does, if one succeeds. -/
theorem attempts_meet {x : Service Product} (code : String)
    (written : Tables → Moment → Except Fault (Product × Tables))
    (one : ∀ v : World, x.Meets v (fun p t => ∃ m ∈ v.times, written v.tables m = .ok (p, t))
      (fun f => ∃ m, written v.tables m = .error f)) :
    Meets (do
        let p ← retrying s (mapFault (Fault.asConflict code) (nested x))
        dropSnapshot code
        return p) w
      (fun p t => ∃ m ∈ w.times, written w.tables m = .ok (p, t))
      (Retried s fun f => ∃ g, (∃ m, written w.tables m = .error g) ∧ f = g.asConflict code) := by
  refine Meets.followed (g := id) (retrying_meets ?_ ?_) ?_
  · intro v same lead
    refine mapFault_meets (nested_meets fun u same' lead' => ?_) (asConflict_fromOthers code)
    refine (one u).mono ?_ ?_
    · rintro p t ⟨m, shows, done⟩
      rw [same', same] at done
      exact ⟨m, lead.times (lead'.times shows), done⟩
    · rintro f ⟨m, failed⟩
      rw [same', same] at failed
      exact ⟨m, failed⟩
  · intro v _
    exact mapFault_restores nested_restores
  · intro p
    exact (dropSnapshot_passes code).bind (passes_pure p)

/- Stock -/

def Unstocked (t : Tables) (code : String) (compute : Product → Except Fault Int) (f : Fault) :
    Prop :=
  ∃ g, (∃ m, t.restock code compute m = .error g) ∧ f = g.asConflict code

theorem writeLocked_meets (code : String) (compute : Product → Except Fault Int) :
    (writeLocked code compute).Meets w
      (fun p t => ∃ m ∈ w.times, w.tables.restock code compute m = .ok (p, t))
      (fun f => ∃ m, w.tables.restock code compute m = .error f) := by
  refine ((lockProduct_meets code).mono (fun _ _ h => h) ?_).bind ?_
  · rintro f ⟨r, found, hidden⟩
    exact ⟨w.now, by simp [Tables.restock, found, hidden, bind, Except.bind]⟩
  rintro p u ⟨kept, shown⟩ onward
  generalize found : w.tables.activeProduct? code = row at shown
  cases shown with
  | none => exact meets_throw ⟨w.now, by simp [Tables.restock, found]⟩
  | @some r q shown =>
    refine ((ofExcept_meets (compute q)).mono (fun _ _ h => h) ?_).bind ?_
    · intro f failed
      exact ⟨w.now, by simp [Tables.restock, found, shown, failed, bind, Except.bind]⟩
    rintro quantity u' ⟨kept', computed⟩ onward'
    apply now_meets.bind
    rintro m v ⟨_, shows, kept''⟩ _
    have there : v.tables = w.tables := kept''.trans (kept'.trans kept)
    refine ((writeStock_meets code quantity m).mono (fun _ _ h => h) ?_).bind ?_
    · rw [there]
      rintro f (⟨rfl, n, member, unfit⟩ | ⟨fit, broken, violated, rfl⟩)
      · cases List.mem_singleton.mp member
        exact ⟨m, by simp [Tables.restock, found, shown, computed, unfit, bind, Except.bind]⟩
      · have fit := fit quantity List.mem_cons_self
        exact ⟨m, by simp [Tables.restock, found, shown, computed, fit, violated, bind,
          Except.bind, Except.mapError]⟩
    · rintro _ v' ⟨stored, fit⟩ _
      rw [there] at stored
      refine meets_pure ⟨m, ?_, Tables.restock_ok.mpr ⟨r, q, quantity, found, shown, computed, fit,
        stored, rfl⟩⟩
      exact (onward.trans onward').times shows

theorem mutateStock_meets (code : String) (compute : Product → Except Fault Int) :
    (mutateStock s code compute).Meets w
      (fun p t => ∃ m ∈ w.times, w.tables.restock code compute m = .ok (p, t))
      (Retried s (Unstocked w.tables code compute)) :=
  attempts_meet code (fun t m => t.restock code compute m) fun _ => writeLocked_meets code compute

theorem mutateStock_restores (code : String) (compute : Product → Except Fault Int) :
    (mutateStock s code compute).Restores w := attempts_restore code

theorem reserve_meets (code : String) (quantity : Int) :
    (reserve s code quantity).Meets w
      (fun p t => 0 < quantity ∧ ∃ m ∈ w.times, w.tables.restock code (taking quantity) m = .ok (p, t))
      (fun f => (quantity ≤ 0 ∧ f = .nothingRequested code) ∨
        0 < quantity ∧ Retried s (Unstocked w.tables code (taking quantity)) f) := by
  unfold reserve
  refine meets_guard (fun too_few => .inl ⟨too_few, rfl⟩) fun enough => ?_
  have positive : 0 < quantity := Int.not_le.mp enough
  refine Meets.followed ?_ fun p => (note_passes _ _ _).bind (passes_pure p)
  exact (mutateStock_meets code _).mono (fun _ _ h => ⟨positive, h⟩)
    fun f h => .inr ⟨positive, h⟩

def putting (quantity : Int) (p : Product) : Except Fault Int := .ok (p.stock + quantity)

theorem release_meets (code : String) (quantity : Int) :
    (release s code quantity).Meets w
      (fun _ t => 0 < quantity ∧
        ∃ p, ∃ m ∈ w.times, w.tables.restock code (putting quantity) m = .ok (p, t))
      (fun f => (quantity ≤ 0 ∧ f = .nothingReleased code) ∨
        0 < quantity ∧ Retried s (Unstocked w.tables code (putting quantity)) f) := by
  unfold release
  refine meets_guard (fun too_few => .inl ⟨too_few, rfl⟩) fun enough => ?_
  have positive : 0 < quantity := Int.not_le.mp enough
  refine Meets.followed ?_ fun p => note_passes _ _ _
  exact (mutateStock_meets code (putting quantity)).mono (fun p _ h => ⟨positive, p, h⟩)
    fun f h => .inr ⟨positive, h⟩

theorem setStock_meets (code : String) (quantity : Int) :
    (setStock s code quantity).Meets w
      (fun p t => 0 ≤ quantity ∧
        ∃ m ∈ w.times, w.tables.restock code (fun _ => .ok quantity) m = .ok (p, t))
      (fun f => (quantity < 0 ∧ f = .negativeStock) ∨
        0 ≤ quantity ∧ Retried s (Unstocked w.tables code fun _ => .ok quantity) f) := by
  unfold setStock
  refine meets_guard (fun negative => .inl ⟨negative, rfl⟩) fun not_negative => ?_
  have allowed : 0 ≤ quantity := Int.not_lt.mp not_negative
  exact (mutateStock_meets code _).mono (fun p t h => ⟨allowed, h⟩) fun f h => .inr ⟨allowed, h⟩

/- Descriptions -/

theorem writeDescription_meets (code name : String) (price : Decimal) :
    (writeDescription code name price).Meets w
      (fun p t => ∃ m ∈ w.times, w.tables.redescribe code name price m = .ok (p, t))
      (fun f => ∃ m, w.tables.redescribe code name price m = .error f) := by
  refine Meets.absorb (((productWithCode_meets code).mono (fun _ _ h => h) ?_).bind ?_)
  · rintro f ⟨r, found, hidden⟩
    exact .inl ⟨w.now, by simp [Tables.redescribe, found, hidden, bind, Except.bind]⟩
  rintro p u ⟨kept, shown⟩ onward
  generalize found : w.tables.product? code = row at shown
  cases shown with
  | none => exact meets_throw (.inl ⟨w.now, by simp [Tables.redescribe, found]⟩)
  | @some r q shown =>
    refine meets_guard ?_ fun active => ?_
    · intro archived
      exact .inl ⟨w.now, by simp [Tables.redescribe, found, shown, archived, bind, Except.bind]⟩
    replace active : q.archived = false := by simpa using active
    apply now_meets.bind
    rintro m v ⟨_, shows, kept'⟩ onward'
    have there : v.tables = w.tables := kept'.trans kept
    refine ((swapCatalog_meets code q.version name price m).mono (fun _ _ h => h) ?_).bind ?_
    · rw [there]
      rintro f (⟨rfl, n, member, unfit⟩ | ⟨fit, broken, violated, rfl⟩)
      · cases List.mem_singleton.mp member
        exact .inl ⟨m, by simp [Tables.redescribe, found, shown, active, unfit, bind, Except.bind]⟩
      · have fit := fit q.version List.mem_cons_self
        exact .inl ⟨m, by simp [Tables.redescribe, found, shown, active, fit, violated, bind,
          Except.bind, Except.mapError]⟩
    · rw [there]
      rintro swapped v' outcome _
      apply meets_ite
      · rintro rfl
        rcases outcome with ⟨stored, fit⟩ | ⟨lost, _⟩
        · exact meets_pure ⟨m, onward.times shows, Tables.redescribe_ok.mpr ⟨r, q, found, shown,
            active, fit, stored, rfl⟩⟩
        · cases lost
      · intro lost
        obtain rfl : swapped = false := by simpa using lost
        rcases outcome with ⟨stored, fit⟩ | ⟨_, _, noisy⟩
        · exact meets_throw (.inl ⟨m, by simp [Tables.redescribe, found, shown, active, fit, stored,
            bind, Except.bind, Except.mapError]⟩)
        · have before : ¬w.Quiet := fun quiet => noisy ((onward.trans onward').quiet quiet)
          exact meets_throw (.inr ⟨before, .inr (.inl rfl)⟩)

def Undescribed (t : Tables) (code name : String) (price : Decimal) (f : Fault) : Prop :=
  ∃ g, (∃ m, t.redescribe code name price m = .error g) ∧ f = g.asConflict code

theorem describe_meets (code name : String) (price : Decimal) :
    (describe s code name price).Meets w
      (fun p t => ∃ m ∈ w.times, w.tables.redescribe code name price m = .ok (p, t))
      (Retried s (Undescribed w.tables code name price)) :=
  attempts_meet code (fun t m => t.redescribe code name price m)
    fun _ => writeDescription_meets code name price

end Service
end Stockroom
