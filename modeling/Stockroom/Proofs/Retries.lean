import Stockroom.Proofs.Runs

/-! Attempts at a write of stock.
The attempts at an action make a trace: each but the last fails for a reason that allows
another, and the last one's outcome is the outcome. An attempt at a write of stock that fails
leaves the tables as they were, so of all attempts at most the last has written, and once. -/
namespace Stockroom

open Service (fits64)

/- Traces of attempts -/

namespace Attempts

variable {σ α : Type}

/-- The attempts from number `n` on, by the faults of those that failed. -/
inductive Tried (s : Settings.Attempts) (pause : Nat → Fault → Binary64 → σ → σ)
    (action : EStateM Fault σ α) : Nat → σ → List Fault → EStateM.Result Fault σ α → Prop where
  | done {n : Nat} {st st' : σ} {a : α} : action st = .ok a st' →
      Tried s pause action n st [] (.ok a st')
  | last {n : Nat} {st st' : σ} {f : Fault} : action st = .error f st' →
      (mayRetry s f = true → n = s.maxAttempts.1) → Tried s pause action n st [f] (.error f st')
  | again {n : Nat} {st st' : σ} {f : Fault} {wait : Binary64} {faults : List Fault}
      {result : EStateM.Result Fault σ α} :
      action st = .error f st' → mayRetry s f = true → n < s.maxAttempts.1 →
      waitAfter s n = .ok wait →
      Tried s pause action (n + 1) (pause n f wait st') faults result →
      Tried s pause action n st (f :: faults) result

section

variable {s : Settings.Attempts} {pause : Nat → Fault → Binary64 → σ → σ}
  {action : EStateM Fault σ α} {n : Nat} {st : σ} {faults : List Fault}
  {result : EStateM.Result Fault σ α}

theorem continueFrom_tried (further : Nat) (all : n + further = s.maxAttempts.1)
    (waits : ∀ k : Nat, n ≤ k → k ≤ s.maxAttempts.1 → ∃ wait, waitAfter s k = .ok wait) :
    ∃ faults, Tried s pause action n st faults (continueFrom s pause action further n st) := by
  induction further generalizing n st with
  | zero =>
    obtain ⟨wait, after⟩ := waits n (Nat.le_refl n) (by omega)
    rw [continueFrom.eq_def]
    dsimp only
    cases run : action st with
    | ok a st' => exact ⟨[], .done run⟩
    | error f st' =>
      refine ⟨[f], ?_⟩
      simpa [after] using .last run fun _ => by omega
  | succ further ih =>
    obtain ⟨wait, after⟩ := waits n (Nat.le_refl n) (by omega)
    rw [continueFrom.eq_def]
    dsimp only
    cases run : action st with
    | ok a st' => exact ⟨[], .done run⟩
    | error f st' =>
      dsimp only
      by_cases again : mayRetry s f = true
      · have later (k : Nat) (low : n + 1 ≤ k) := waits k (by omega)
        obtain ⟨faults, rest⟩ := @ih (n + 1) (pause n f wait st') (by omega) later
        refine ⟨f :: faults, ?_⟩
        rw [if_pos again, after]
        exact .again run again (by omega) after rest
      · refine ⟨[f], ?_⟩
        rw [if_neg again]
        exact .last run fun retried => absurd retried again

theorem mayRetry_conflict (only : s.retryable = [.concurrencyConflict]) (f : Fault) :
    mayRetry s f = true ↔ f.kind = .concurrencyConflict := by
  simp [mayRetry, only, Fault.Kind.covers, eq_comm]

theorem Tried.few (h : Tried s pause action n st faults result) (within : n ≤ s.maxAttempts.1) :
    n + faults.length ≤ s.maxAttempts.1 + 1 := by
  induction h with
  | done => exact Nat.le_succ_of_le within
  | last => exact Nat.succ_le_succ within
  | again _ _ less _ _ ih =>
    have rest := ih less
    rw [List.length_cons]
    omega

theorem Tried.stops (h : Tried s pause action n st faults result) {before after : List Fault}
    {f : Fault} (listed : faults = before ++ f :: after) (fatal : mayRetry s f = false) :
    after = [] ∧ ∃ st', result = .error f st' := by
  induction h generalizing before with
  | done => simp at listed
  | last run _ =>
    cases before with
    | nil =>
      cases listed
      exact ⟨rfl, _, rfl⟩
    | cons g before => simp at listed
  | again run retried less wait rest ih =>
    cases before with
    | nil =>
      cases listed
      rw [retried] at fatal
      cases fatal
    | cons g before =>
      cases listed
      exact ih rfl

/-- Attempts succeed before they are used up, or end with the last of the faults. -/
theorem Tried.ends (h : Tried s pause action n st faults result) (within : n ≤ s.maxAttempts.1) :
    (∃ a st', result = .ok a st' ∧ n + faults.length ≤ s.maxAttempts.1) ∨
      ∃ f st', result = .error f st' ∧ faults.getLast? = some f ∧
        (mayRetry s f = true → n + faults.length = s.maxAttempts.1 + 1) := by
  induction h with
  | done => exact .inl ⟨_, _, rfl, within⟩
  | last _ full =>
    refine .inr ⟨_, _, rfl, rfl, fun retried => ?_⟩
    rw [full retried, List.length_singleton]
  | @again n _ _ g _ faults _ _ _ less _ _ ih =>
    rcases ih less with ⟨a, st', rfl, few⟩ | ⟨f, st', rfl, last, full⟩
    · refine .inl ⟨a, st', rfl, ?_⟩
      rw [List.length_cons]
      omega
    · refine .inr ⟨f, st', rfl, ?_, fun retried => ?_⟩
      · rw [List.getLast?_cons, last]
        rfl
      · have := full retried
        rw [List.length_cons]
        omega

end

theorem default_waits (n : Nat) (low : 1 ≤ n)
    (high : n ≤ ({} : Settings.Attempts).maxAttempts.1) :
    ∃ wait, waitAfter {} n = .ok wait := by
  have limit : ({} : Settings.Attempts).maxAttempts.1 = 3 := rfl
  have answered : (waitAfter {} n).toBool = true := by
    obtain rfl | rfl | rfl : n = 1 ∨ n = 2 ∨ n = 3 := by omega
    · decide +kernel
    · decide +kernel
    · decide +kernel
  cases after : waitAfter {} n with
  | ok wait => exact ⟨wait, rfl⟩
  | error f =>
    rw [after] at answered
    cases answered

end Attempts

/-- Attempts that all end with a fault end with it: no other attempt is made, or every wait
until the last can be computed. -/
def Settings.Attempts.Surfaces (s : Settings.Attempts) (f : Fault) : Prop :=
  Attempts.mayRetry s f = true →
    ∀ n : Nat, 1 ≤ n → n ≤ s.maxAttempts.1 → ∃ wait, Attempts.waitAfter s n = .ok wait

/-- With only conflicts tried again, every other fault is told at once. -/
theorem surfaces_plain {s : Settings.Attempts} (only : s.retryable = [.concurrencyConflict])
    {f : Fault} (plain : f.kind ≠ .concurrencyConflict) : s.Surfaces f :=
  fun again => absurd ((Attempts.mayRetry_conflict only f).mp again) plain

/- Refusals in store -/

namespace World

/-- The fault is a refusal that others have in store for a statement or for a row's lock. -/
def Refuses (w : World) (f : Fault) : Prop :=
  ∃ r, f = .refused r ∧ ((w.disruptions.tablesLocked = true ∧ r = .locked) ∨
    some r ∈ w.disruptions.statements ∨ some r ∈ w.disruptions.rowLocks)

theorem Leads.refuses {v w : World} {f : Fault} (h : v.Leads w) (refused : w.Refuses f) :
    v.Refuses f := by
  obtain ⟨r, rfl, locked | statement | row⟩ := refused
  · exact ⟨r, rfl, .inl (h.left.locked ▸ locked)⟩
  · exact ⟨r, rfl, .inr (.inl (h.left.statements statement))⟩
  · exact ⟨r, rfl, .inr (.inr (h.left.rowLocks row))⟩

end World

namespace Service

variable {α β : Type} {w : World}

def Yields (x : Service α) (w : World) (good : α → World → Prop) (bad : Fault → Prop) : Prop :=
  x.Ends w (fun a v => good a v ∧ w.Leads v) (fun f v => (bad f ∨ w.Refuses f) ∧ w.Leads v)

section Yields

variable {x : Service α} {good : α → World → Prop} {bad : Fault → Prop}

theorem Yields.mono {good' : α → World → Prop} {bad' : Fault → Prop} (h : x.Yields w good bad)
    (onGood : ∀ a v, good a v → good' a v) (onBad : ∀ f, bad f → bad' f) :
    x.Yields w good' bad' :=
  Ends.mono h (fun _ _ h => ⟨onGood _ _ h.1, h.2⟩) fun _ _ h => ⟨h.1.imp_left (onBad _), h.2⟩

theorem Yields.bind {f : α → Service β} {good' : β → World → Prop} (first : x.Yields w good bad)
    (second : ∀ a v, good a v → w.Leads v → (f a).Yields v good' bad) :
    (x >>= f).Yields w good' bad := by
  refine ends_bind.mpr (Ends.mono first ?_ fun _ _ h => h)
  rintro a v ⟨fits, lead⟩
  refine Ends.mono (second a v fits lead) ?_ ?_
  · exact fun b u h => ⟨h.1, lead.trans h.2⟩
  · exact fun g u h => ⟨h.1.imp_right lead.refuses, lead.trans h.2⟩

theorem yields_pure {a : α} (h : good a w) : (pure a : Service α).Yields w good bad :=
  ⟨h, .refl w⟩

theorem yields_throw {f : Fault} (h : bad f) : (throw f : Service α).Yields w good bad :=
  ⟨.inl h, .refl w⟩

theorem refused_yields {read : Disruptions → List (Option Refusal)}
    {write : Disruptions → List (Option Refusal) → Disruptions}
    (leaves : ∀ d l, l ⊆ read d → d.Leaves (write d l))
    (ticks : ∀ d l, (write d l).ticks = d.ticks)
    (stored : ∀ r, some r ∈ read w.disruptions → w.Refuses (.refused r)) :
    (disruption none read write >>= refuse).Yields w
      (fun _ v => v.tables = w.tables ∧ v.now = w.now) bad := by
  have lead : w.Leads
      { w with disruptions := (write w.disruptions (popped none (read w.disruptions)).2) } := by
    refine ⟨leaves _ _ (popped_subset _ _), ?_, Nat.le_refl _⟩
    change w.now :: (write w.disruptions _).ticks ⊆ w.now :: w.disruptions.ticks
    rw [ticks]
    exact List.Subset.refl _
  have found := popped_mem none (read w.disruptions)
  change Ends (refuse (popped none (read w.disruptions)).1) _ _ _
  cases first : (popped none (read w.disruptions)).1 with
  | none => exact ⟨⟨rfl, rfl⟩, lead⟩
  | some r =>
    rw [first] at found
    exact ⟨.inr (stored r (found.resolve_left nofun)), lead⟩

theorem turn_yields : turn.Yields w (fun _ v => v.tables = w.tables ∧ v.now = w.now) bad := by
  have free : unlocked.Yields w (fun _ v => v = w) bad := by
    change Ends (if w.disruptions.tablesLocked then throw (.refused .locked) else pure ()) w _ _
    split
    · rename_i locked
      exact ⟨.inr ⟨_, rfl, .inl ⟨locked, rfl⟩⟩, .refl w⟩
    · exact ⟨rfl, .refl w⟩
  apply free.bind
  rintro _ _ rfl _
  refine refused_yields ?_ (fun _ _ => rfl) fun r stored => ⟨r, rfl, .inr (.inl stored)⟩
  exact fun d l sub => { Disruptions.Leaves.refl d with statements := sub }

theorem ofExcept_yields (e : Except Fault α) :
    (ofExcept e).Yields w (fun a v => e = .ok a ∧ v = w) (fun f => e = .error f) := by
  cases e with
  | ok a => exact yields_pure ⟨rfl, rfl⟩
  | error f => exact yields_throw rfl

theorem now_yields : now.Yields w (fun m v => m = v.now ∧ v.tables = w.tables) bad := by
  obtain ⟨v, run, same, now, lead⟩ := now_run w
  unfold Yields
  rw [Ends, run]
  exact ⟨⟨now.symm, same⟩, lead⟩

end Yields

/- One attempt -/

theorem turnWith_yields (numbers : List Int) :
    (turnWith numbers).Yields w
      (fun _ v => (v.tables = w.tables ∧ v.now = w.now) ∧ ∀ n ∈ numbers, fits64 n = true)
      (Unfit numbers) := by
  apply turn_yields.bind
  intro _ v same _
  by_cases fit : numbers.all fits64
  · simp only [fit]
    exact yields_pure ⟨same, List.all_eq_true.mp fit⟩
  · have wrong : ∃ n ∈ numbers, fits64 n = false := by simpa using fit
    simp only [fit]
    exact yields_throw ⟨rfl, wrong⟩

theorem query_yields {bad : Fault → Prop} (read : Tables → α) :
    (query [] read).Yields w (fun a v => a = read w.tables ∧ v.tables = w.tables) bad := by
  refine ((turnWith_yields []).mono (fun _ _ h => h) fun f h => (not_unfit_nil f h).elim).bind ?_
  rintro _ v ⟨⟨same, _⟩, _⟩ _
  exact ⟨⟨congrArg read same, same⟩, .refl v⟩

theorem productOf_yields (row : Option ProductRow) :
    (productOf row).Yields w (fun p v => Shows row p ∧ v = w)
      (fun f => ∃ r, row = some r ∧ r.toProduct = .error f) := by
  cases row with
  | none => exact yields_pure ⟨.none, rfl⟩
  | some r =>
    have shown : (ofExcept r.toProduct).Yields w
        (fun p v => Shows (some r) (some p) ∧ v = w)
        (fun f => ∃ r', some r = some r' ∧ r'.toProduct = .error f) := by
      refine (ofExcept_yields r.toProduct).mono ?_ fun f h => ⟨r, rfl, h⟩
      exact fun p v h => ⟨.some h.1, h.2⟩
    exact ends_map.mpr shown

theorem lockProduct_yields (code : String) :
    (lockProduct code).Yields w
      (fun p v => Shows (w.tables.activeProduct? code) p ∧ v.tables = w.tables)
      (fun f => ∃ r, w.tables.activeProduct? code = some r ∧ r.toProduct = .error f) := by
  have refusal : (disruption none (·.rowLocks) (fun d l => { d with rowLocks := l }) >>=
      refuse).Yields w (fun _ v => v.tables = w.tables ∧ v.now = w.now)
      (fun f => ∃ r, w.tables.activeProduct? code = some r ∧ r.toProduct = .error f) := by
    refine refused_yields ?_ (fun _ _ => rfl) fun r stored => ⟨r, rfl, .inr (.inr stored)⟩
    exact fun d l sub => { Disruptions.Leaves.refl d with rowLocks := sub }
  unfold lockProduct
  rw [← bind_assoc]
  apply refusal.bind
  rintro _ v ⟨same, _⟩ _
  refine (query_yields _).bind ?_
  rintro _ u ⟨rfl, kept⟩ _
  rw [same]
  refine (productOf_yields (w.tables.activeProduct? code)).mono ?_ fun _ h => h
  rintro p _ ⟨shown, rfl⟩
  exact ⟨shown, kept.trans same⟩

theorem writeStock_yields (code : String) (quantity : Int) (m : Moment) :
    (writeStock code quantity m).Yields w
      (fun _ v => w.tables.setStock code quantity m = .ok v.tables ∧ fits64 quantity = true ∧
        v.now = w.now)
      (Breaks [quantity] (w.tables.setStock code quantity m)) := by
  refine ((turnWith_yields [quantity]).mono (fun _ _ h => h) fun _ h => .inl h).bind ?_
  rintro _ v ⟨⟨same, now⟩, fit⟩ _
  have fit' := fit quantity List.mem_cons_self
  unfold Yields Ends change
  rw [same]
  cases stored : w.tables.setStock code quantity m with
  | error broken =>
    simp only [silent, stored, Except.map]
    exact ⟨.inl (.inr ⟨fit, broken, rfl, rfl⟩), .refl v⟩
  | ok t =>
    simp only [silent, stored, Except.map]
    exact ⟨⟨trivial, fit', now⟩, .of_eq rfl rfl (Nat.le_refl _)⟩

theorem writeLocked_yields (code : String) (compute : Product → Except Fault Int) :
    (writeLocked code compute).Yields w
      (fun p v => w.tables.restock code compute v.now = .ok (p, v.tables))
      (w.tables.Unwritten code compute) := by
  refine ((lockProduct_yields code).mono (fun _ _ h => h) ?_).bind ?_
  · rintro f ⟨r, found, hidden⟩
    exact .unreadable found hidden
  rintro p u ⟨shown, kept⟩ _
  generalize found : w.tables.activeProduct? code = row at shown
  cases shown with
  | none => exact yields_throw (.unknown found)
  | @some r q shown =>
    refine ((ofExcept_yields (compute q)).mono (fun _ _ h => h) ?_).bind ?_
    · exact fun f failed => .uncomputed found shown failed
    rintro quantity _ ⟨computed, rfl⟩ _
    apply now_yields.bind
    rintro m v ⟨rfl, kept'⟩ _
    have there : v.tables = w.tables := kept'.trans kept
    refine ((writeStock_yields code quantity v.now).mono (fun _ _ h => h) ?_).bind ?_
    · rw [there]
      rintro f (⟨rfl, n, member, unfit⟩ | ⟨_, broken, violated, rfl⟩)
      · cases List.mem_singleton.mp member
        exact .unfit found shown computed unfit
      · exact .broken found shown computed violated
    · rintro _ v' ⟨stored, fit, same⟩ _
      rw [there, ← same] at stored
      exact yields_pure (Tables.restock_ok.mpr ⟨r, q, quantity, found, shown, computed, fit,
        stored, rfl⟩)

theorem atomically_ends {x : Service α} {good : α → World → Prop} {bad : Fault → Prop}
    (h : x.Yields w good bad)
    (settled : ∀ a v u, good a v → u.tables = v.tables → u.now = v.now → good a u) :
    (atomically x).Ends w (fun a v => good a v ∧ w.Leads v)
      (fun f v => ((bad f ∨ w.Refuses f) ∧ w.Leads v) ∧ v.tables = w.tables) := by
  have closed : (closing x).Yields w good bad := by
    apply h.bind
    intro a v fits _
    apply turn_yields.bind
    rintro _ u ⟨tables, now⟩ _
    exact yields_pure (settled a v u fits tables now)
  have restored : (atomically x).Restores w := atomically_restores
  unfold Yields at closed
  unfold Restores at restored
  unfold Ends atomically at *
  cases run : closing x w with
  | ok a v =>
    rw [run] at closed
    exact closed
  | error f v =>
    rw [run] at closed
    exact ⟨⟨closed.1, closed.2.left, closed.2.times, closed.2.codes⟩, rfl⟩

def Foiled (w : World) (code : String) (compute : Product → Except Fault Int) (f : Fault) : Prop :=
  ∃ g, f = g.asConflict code ∧ (w.tables.Unwritten code compute g ∨ w.Refuses g)

theorem mapFault_ends {x : Service α} {g : Fault → Fault} {good : α → World → Prop}
    {bad : Fault → World → Prop} (h : x.Ends w good fun f v => bad (g f) v) :
    (mapFault g x).Ends w good bad := by
  unfold Ends at h ⊢
  unfold mapFault
  cases run : x w with
  | ok a v =>
    rw [run] at h
    exact h
  | error f v =>
    rw [run] at h
    exact h

theorem stockAttempt_ends (code : String) (compute : Product → Except Fault Int) :
    (stockAttempt code compute).Ends w
      (fun p v => w.tables.restock code compute v.now = .ok (p, v.tables) ∧ w.Leads v)
      (fun f v => Foiled w code compute f ∧ v.tables = w.tables ∧ w.Leads v) := by
  apply mapFault_ends
  have first : turn.Yields w (fun _ v => v.tables = w.tables ∧ v.now = w.now) fun _ => False :=
    turn_yields
  refine ends_bind.mpr ((Ends.and first (turn_keeps w)).mono ?_ ?_)
  · rintro _ u ⟨⟨_, lead⟩, same⟩
    refine (atomically_ends (writeLocked_yields code compute) ?_).mono ?_ ?_
    · intro p v v' written tables now
      rw [tables, now]
      exact written
    · rintro p v ⟨written, onward⟩
      exact ⟨same ▸ written, lead.trans onward⟩
    · rintro g v ⟨⟨why, onward⟩, kept⟩
      refine ⟨⟨g, rfl, ?_⟩, kept.trans same, lead.trans onward⟩
      exact why.imp (same ▸ ·) lead.refuses
  · rintro g v ⟨⟨why, lead⟩, same⟩
    exact ⟨⟨g, rfl, .inr (why.resolve_left id)⟩, same, lead⟩

theorem asConflict_settled {code : String} {g : Fault} {r : Refusal}
    (seen : g.asConflict code = .refused r) : r.isContention = false := by
  cases g with
  | refused r' =>
    cases contention : r'.isContention with
    | true =>
      simp [Fault.asConflict, contention, Fault.lockedElsewhere] at seen
    | false =>
      simp only [Fault.asConflict, contention] at seen
      cases seen
      exact contention
  | _ => cases seen

/- All attempts -/

theorem retrying_tried {s : Settings.Attempts} {x : Service α}
    (waits : ∀ n : Nat, 1 ≤ n → n ≤ s.maxAttempts.1 → ∃ wait, Attempts.waitAfter s n = .ok wait) :
    ∃ faults, Attempts.Tried s (paused s) x 1 w faults (retrying s x w) := by
  have most : 0 < s.maxAttempts.1 := s.maxAttempts.2
  exact Attempts.continueFrom_tried (s.maxAttempts.1 - 1) (by omega) waits

theorem tried_stock {s : Settings.Attempts} {code : String} {compute : Product → Except Fault Int}
    {n : Nat} {u : World} {faults : List Fault} {result : EStateM.Result Fault World Product}
    (tried : Attempts.Tried s (paused s) (stockAttempt code compute) n u faults result)
    (same : u.tables = w.tables) (lead : w.Leads u) :
    (∀ f ∈ faults, Foiled w code compute f) ∧
      (∀ p v, result = .ok p v → w.tables.restock code compute v.now = .ok (p, v.tables)) ∧
      ∀ f v, result = .error f v → v.tables = w.tables := by
  have foiled {u : World} {f : Fault} (same : u.tables = w.tables) (lead : w.Leads u)
      (why : Foiled u code compute f) : Foiled w code compute f := by
    obtain ⟨g, rfl, why⟩ := why
    exact ⟨g, rfl, why.imp (same ▸ ·) lead.refuses⟩
  induction tried with
  | done run =>
    obtain ⟨written, _⟩ := (stockAttempt_ends code compute).of_ok run
    refine ⟨by simp, fun p v done => ?_, fun _ _ failed => ?_⟩
    · cases done
      exact same ▸ written
    · cases failed
  | last run _ =>
    obtain ⟨why, kept, _⟩ := (stockAttempt_ends code compute).of_error run
    refine ⟨by simpa using foiled same lead why, fun _ _ done => ?_, fun _ _ failed => ?_⟩
    · cases done
    · cases failed
      exact kept.trans same
  | again run _ _ _ _ ih =>
    obtain ⟨why, kept, onward⟩ := (stockAttempt_ends code compute).of_error run
    obtain ⟨rest, outcomes⟩ := ih (kept.trans same)
      ((lead.trans onward).trans (.of_eq rfl rfl (Nat.le_refl _)))
    exact ⟨List.forall_mem_cons.mpr ⟨foiled same lead why, rest⟩, outcomes⟩

theorem mutateStock_ok {s : Settings.Attempts} {code : String}
    {compute : Product → Except Fault Int} {p : Product} {v : World} :
    mutateStock s code compute w = .ok p v ↔
      ∃ u, retrying s (stockAttempt code compute) w = .ok p u ∧
        v = { u with snapshots := u.snapshots.evict code } := by
  unfold mutateStock
  refine bind_ok.trans ⟨?_, ?_⟩
  · rintro ⟨q, u, run, rest⟩
    cases rest
    exact ⟨u, run, rfl⟩
  · rintro ⟨u, run, rfl⟩
    exact ⟨p, u, run, rfl⟩

theorem mutateStock_error {s : Settings.Attempts} {code : String}
    {compute : Product → Except Fault Int} {f : Fault} {v : World} :
    mutateStock s code compute w = .error f v ↔
      retrying s (stockAttempt code compute) w = .error f v := by
  unfold mutateStock
  refine bind_error.trans ⟨?_, .inl⟩
  rintro (failed | ⟨p, u, _, rest⟩)
  · exact failed
  · cases rest

/-- Attempts at a write of stock that fail leave no trace in the tables: those after the call
are those before it with the new stock, written once, or those before it if all attempts
failed. Each fault is seen without contention, and the first that allows no other attempt is
the outcome. -/
theorem retried_write_counts_once (s : Settings.Attempts) (code : String)
    (compute : Product → Except Fault Int) (w : World)
    (waits : ∀ n : Nat, 1 ≤ n → n ≤ s.maxAttempts.1 → ∃ wait, Attempts.waitAfter s n = .ok wait) :
    ∃ faults, Attempts.Tried s (paused s) (stockAttempt code compute) 1 w faults
        (retrying s (stockAttempt code compute) w) ∧
      faults.length ≤ s.maxAttempts.1 ∧
      (∀ f ∈ faults, Foiled w code compute f ∧ ∀ r, f = .refused r → r.isContention = false) ∧
      (∀ before f after, faults = before ++ f :: after → Attempts.mayRetry s f = false →
        after = [] ∧ ∃ v, mutateStock s code compute w = .error f v) ∧
      (s.retryable = [.concurrencyConflict] → ∀ f, Attempts.mayRetry s f = true ↔
        f.kind = .concurrencyConflict) ∧
      match mutateStock s code compute w with
      | .ok p v => faults.length < s.maxAttempts.1 ∧ ∃ r q quantity,
          w.tables.activeProduct? code = some r ∧ r.toProduct = .ok q ∧
          compute q = .ok quantity ∧ p = { q with stock := quantity } ∧
          v.tables = w.tables.updateProduct code fun r =>
            { r with stock := quantity, updatedAt := some v.now }
      | .error f v => v.tables = w.tables ∧ faults.getLast? = some f ∧
          (Attempts.mayRetry s f = true → faults.length = s.maxAttempts.1) := by
  have most : 1 ≤ s.maxAttempts.1 := s.maxAttempts.2
  obtain ⟨faults, tried⟩ := retrying_tried (w := w) (x := stockAttempt code compute) waits
  obtain ⟨foiled, written, kept⟩ := tried_stock tried rfl (.refl w)
  refine ⟨faults, tried, by have := tried.few most; omega, fun f here => ⟨foiled f here, ?_⟩, ?_,
    Attempts.mayRetry_conflict, ?_⟩
  · rintro r rfl
    obtain ⟨g, seen, _⟩ := foiled _ here
    exact asConflict_settled seen.symm
  · intro before f after listed fatal
    obtain ⟨last, v, failed⟩ := tried.stops listed fatal
    exact ⟨last, v, mutateStock_error.mpr failed⟩
  · cases run : mutateStock s code compute w with
    | ok p v =>
      obtain ⟨u, done, rfl⟩ := mutateStock_ok.mp run
      obtain ⟨r, q, quantity, found, shown, computed, _, stored, rfl⟩ :=
        Tables.restock_ok.mp (written p u done)
      rcases tried.ends most with ⟨_, _, _, few⟩ | ⟨_, _, failed, _⟩
      · exact ⟨by omega, r, q, quantity, found, shown, computed, rfl, (setStock_ok stored).2⟩
      · cases done.symm.trans failed
    | error f v =>
      have failed := mutateStock_error.mp run
      rcases tried.ends most with ⟨_, _, done, _⟩ | ⟨g, _, same, last, full⟩
      · cases failed.symm.trans done
      · cases failed.symm.trans same
        exact ⟨kept f v failed, last, fun retried => by have := full retried; omega⟩

/-- Tea on order, with the lock on its row refused to the first attempt and the end of the
second, after the row was written. -/
def crowdedTea : World :=
  { World.teaOrdered with
    disruptions := {
      rowLocks := [some .locked]
      statements := [none, none, none, none, some .locked] } }

theorem third_attempt_takes_tea :
    ∃ p v, mutateStock {} "tea" (taking 1) crowdedTea = .ok p v ∧ v.waits.length = 2 ∧
      v.tables = crowdedTea.tables.updateProduct "tea" fun r =>
        { r with stock := 2, updatedAt := some v.now } := by
  obtain ⟨_, _, _, _, _, _, outcome⟩ :=
    retried_write_counts_once {} "tea" (taking 1) crowdedTea Attempts.default_waits
  have shown : (match mutateStock {} "tea" (taking 1) crowdedTea with
      | .ok p v => decide (p.stock = 2 ∧ v.waits.length = 2)
      | .error _ _ => false) = true := by decide +kernel
  cases run : mutateStock {} "tea" (taking 1) crowdedTea with
  | error f v =>
    rw [run] at shown
    cases shown
  | ok p v =>
    rw [run] at shown outcome
    obtain ⟨left, twice⟩ := of_decide_eq_true shown
    obtain ⟨_, _, _, quantity, _, _, _, rfl, tables⟩ := outcome
    obtain rfl : quantity = 2 := left
    exact ⟨_, v, rfl, twice, tables⟩

end Service
end Stockroom
