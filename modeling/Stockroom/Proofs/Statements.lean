import Mathlib.Algebra.Ring.Int.Defs
import Mathlib.Data.List.Forall2
import Stockroom.Proofs.Steps

namespace Stockroom

def World.turned (w : World) : World :=
  { w with disruptions :=
    { w.disruptions with statements := w.disruptions.statements.tail } }

namespace Service

variable {α β : Type} {w : World} {bad : Fault → Prop}

/- Steps that leave the tables alone -/

theorem note_passes (writer : Journal.Writer) (level : Journal.Level) (message : String) :
    (note writer level message).Passes () :=
  fun _ => ⟨_, rfl, rfl, .of_eq rfl rfl (Nat.le_refl _)⟩

theorem dropSnapshot_passes (code : String) : (dropSnapshot code).Passes () :=
  fun _ => ⟨_, rfl, rfl, .of_eq rfl rfl (Nat.le_refl _)⟩

theorem dropSnapshots_passes (codes : List String) : (dropSnapshots codes).Passes () := by
  unfold dropSnapshots
  induction codes with
  | nil => exact passes_pure ()
  | cons code codes ih => exact (dropSnapshot_passes code).bind ih

theorem keepSnapshot_passes (p : Product) : (keepSnapshot p).Passes () :=
  fun _ => ⟨_, rfl, rfl, .of_eq rfl rfl (Nat.le_refl _)⟩

theorem snapshot_meets (code : String) :
    (snapshot code).Meets w (fun _ t => t = w.tables) bad :=
  fun _ => ⟨rfl, .of_eq rfl rfl (Nat.le_refl _)⟩

theorem now_idle (no_ticks : w.disruptions.ticks = []) : now w = .ok w.now w := by
  obtain ⟨tables, snapshots, shown, epoch, journal, waits, disruptions, codes⟩ := w
  obtain ⟨locked, statements, rowLocks, lostSwaps, unseen, steals, expiries, ticks⟩ := disruptions
  cases no_ticks
  rfl

theorem now_ticks {m : Moment} {rest : List Moment} (ticks : w.disruptions.ticks = m :: rest) :
    now w = .ok m { w with now := m, disruptions := { w.disruptions with ticks := rest } } := by
  obtain ⟨tables, snapshots, shown, epoch, journal, waits, disruptions, codes⟩ := w
  obtain ⟨locked, statements, rowLocks, lostSwaps, unseen, steals, expiries, _⟩ := disruptions
  cases ticks
  rfl

theorem now_run (w : World) :
    ∃ v, now w = .ok w.clock v ∧ v.tables = w.tables ∧ v.now = w.clock ∧ w.Leads v := by
  cases ticks : w.disruptions.ticks with
  | nil =>
    have clock : w.clock = w.now := by rw [World.clock, ticks, List.headD_nil]
    exact ⟨w, clock ▸ now_idle ticks, rfl, clock.symm, .refl w⟩
  | cons m rest =>
    have clock : w.clock = m := by rw [World.clock, ticks, List.headD_cons]
    rw [clock]
    refine ⟨_, now_ticks ticks, rfl, rfl, .of_ticks ?_, ?_, Nat.le_refl _⟩
    · rw [ticks]
      exact List.subset_cons_self _ _
    · rw [World.times, World.times, ticks]
      exact List.subset_cons_self _ _

theorem now_meets :
    now.Meets w (fun m t => m = w.clock ∧ m ∈ w.times ∧ t = w.tables) bad := by
  intro _
  obtain ⟨v, run, same, _, lead⟩ := now_run w
  rw [Ends, run]
  exact ⟨⟨rfl, w.clock_mem_times, same⟩, lead⟩

theorem now_keeps : now.Keeps := by
  intro w
  obtain ⟨v, run, same, _⟩ := now_run w
  rw [Ends, run]
  exact same

theorem ofExcept_keeps (e : Except Fault α) : (ofExcept e).Keeps := by
  cases e with
  | ok a => exact keeps_pure a
  | error f => exact keeps_throw f

theorem later_keeps (m : Moment) (span : Span) : (later m span).Keeps := by
  unfold later
  split
  · exact keeps_pure _
  · exact keeps_throw _

theorem ofExcept_meets (e : Except Fault α) :
    (ofExcept e).Meets w (fun a t => t = w.tables ∧ e = .ok a) (fun f => e = .error f) := by
  cases e with
  | ok a => exact meets_pure ⟨rfl, rfl⟩
  | error f => exact meets_throw rfl

theorem ofExcept_ok {e : Except Fault α} {a : α} {v : World} :
    ofExcept e w = .ok a v ↔ e = .ok a ∧ v = w := by
  cases e with
  | ok b => simp [ofExcept, pure, EStateM.pure, eq_comm]
  | error f => simp [ofExcept, throw_run]

theorem later_meets (m : Moment) (span : Span) :
    (later m span).Meets w (fun m' t => t = w.tables ∧ m.shift? span = some m')
      (fun f => f = .beyondCalendar ∧ m.shift? span = none) := by
  unfold later
  cases shifted : m.shift? span with
  | none => exact meets_throw ⟨rfl, rfl⟩
  | some m' => exact meets_pure ⟨rfl, rfl⟩

/- Disruptions used up -/

theorem popped_mem {γ : Type} (absent : γ) (l : List γ) :
    (popped absent l).1 = absent ∨ (popped absent l).1 ∈ l := by
  cases l with
  | nil => exact .inl rfl
  | cons x l => exact .inr List.mem_cons_self

theorem popped_subset {γ : Type} (absent : γ) (l : List γ) : (popped absent l).2 ⊆ l := by
  cases l with
  | nil => exact List.Subset.refl _
  | cons x l => exact List.subset_cons_self _ _

theorem disruption_ends {γ : Type} (absent : γ) (read : Disruptions → List γ)
    (write : Disruptions → List γ → Disruptions)
    (leaves : ∀ l, l ⊆ read w.disruptions → w.disruptions.Leaves (write w.disruptions l))
    (ticks : ∀ l, (write w.disruptions l).ticks = w.disruptions.ticks) :
    (disruption absent read write).Ends w
      (fun x v => (x = absent ∨ x ∈ read w.disruptions) ∧ v.tables = w.tables ∧ w.Leads v)
      (fun _ _ => False) := by
  refine ⟨popped_mem absent _, rfl, leaves _ (popped_subset absent _), ?_, Nat.le_refl _⟩
  change w.now :: (write w.disruptions _).ticks ⊆ w.now :: w.disruptions.ticks
  rw [ticks]
  exact List.Subset.refl _

theorem disruption_meets {γ : Type} {absent : γ} {read : Disruptions → List γ}
    {write : Disruptions → List γ → Disruptions}
    (leaves : ∀ d l, l ⊆ read d → d.Leaves (write d l))
    (ticks : ∀ d l, (write d l).ticks = d.ticks)
    (quiet : w.Quiet → ∀ x ∈ read w.disruptions, x = absent) :
    (disruption absent read write).Meets w
      (fun x t => t = w.tables ∧ (x = absent ∨ ¬w.Quiet)) bad := by
  intro _
  refine (disruption_ends absent read write (leaves _) (ticks _)).mono ?_ fun _ _ h => h.elim
  rintro x v ⟨found, same, lead⟩
  refine ⟨⟨same, ?_⟩, lead⟩
  by_cases calm : w.Quiet
  · exact .inl (found.elim id (quiet calm x))
  · exact .inr calm

theorem refused_meets {read : Disruptions → List (Option Refusal)}
    {write : Disruptions → List (Option Refusal) → Disruptions}
    (leaves : ∀ d l, l ⊆ read d → d.Leaves (write d l))
    (ticks : ∀ d l, (write d l).ticks = d.ticks)
    (quiet : w.Quiet → ∀ x ∈ read w.disruptions, x = none) :
    (disruption none read write >>= refuse).Meets w (fun _ t => t = w.tables) bad := by
  intro alone
  have next : (disruption none read write).Meets w
      (fun x t => t = w.tables ∧ (x = none ∨ ¬w.Quiet)) bad := disruption_meets leaves ticks quiet
  refine ends_bind.mpr ((next alone).mono ?_ ?_)
  · rintro r v ⟨⟨same, noisy⟩, lead⟩
    cases r with
    | none => exact ⟨same, lead⟩
    | some r => exact ⟨.inr ⟨noisy.resolve_left (by simp), .inl rfl⟩, lead⟩
  · exact fun _ _ h => h

theorem unlocked_meets : unlocked.Meets w (fun _ t => t = w.tables) bad := by
  intro _
  change Ends (if w.disruptions.tablesLocked then throw (.refused .locked) else pure ()) w _ _
  split
  · rename_i locked
    refine ⟨.inr ⟨fun quiet => ?_, .inl rfl⟩, .refl w⟩
    have free := quiet.unlocked
    rw [locked] at free
    contradiction
  · exact ⟨rfl, .refl w⟩

theorem turn_meets : turn.Meets w (fun _ t => t = w.tables) bad := by
  apply unlocked_meets.bind
  intro _ v same _
  refine Meets.mono (refused_meets ?_ ?_ ?_) (fun _ t h => h.trans same) fun _ h => h
  · exact fun d l sub => { Disruptions.Leaves.refl d with statements := sub }
  · exact fun _ _ => rfl
  · exact fun quiet => quiet.statements

theorem turn_keeps : turn.Keeps := by
  intro w
  apply ends_bind.mpr
  change Ends (if w.disruptions.tablesLocked then throw (.refused .locked) else pure ()) w _ _
  split
  · exact rfl
  · change Ends (refuse (popped none w.disruptions.statements).1) _ _ _
    cases (popped none w.disruptions.statements).1 <;> exact rfl

theorem turn_ok {v : World} (run : turn w = .ok () v) : v = w.turned := by
  obtain ⟨_, u, free, rest⟩ := bind_ok.mp run
  have idle : u = w := by
    change (if w.disruptions.tablesLocked then throw (.refused .locked) else pure () :
      Service Unit) w = .ok () u at free
    split at free
    · cases free
    · cases free
      rfl
  subst idle
  change refuse (popped none u.disruptions.statements).1
    { u with disruptions :=
      { u.disruptions with statements := (popped none u.disruptions.statements).2 } } = _ at rest
  unfold World.turned
  cases listed : u.disruptions.statements with
  | nil =>
    rw [listed] at rest
    cases rest
    rfl
  | cons r rest' =>
    rw [listed] at rest
    cases r with
    | none =>
      cases rest
      rfl
    | some r => cases rest

/- Steps as a whole -/

section Whole

variable {x : Service α} {good : α → Tables → Prop}

theorem closing_meets (h : x.Meets w good bad) : (closing x).Meets w good bad := by
  apply h.bind
  intro a v fits _
  apply turn_meets.bind
  intro _ u same _
  exact meets_pure (same ▸ fits)

theorem atomically_meets (h : x.Meets w good bad) : (atomically x).Meets w good bad := by
  intro alone
  have ends := closing_meets h alone
  unfold Ends at ends ⊢
  unfold atomically
  cases run : closing x w with
  | ok a v =>
    rw [run] at ends
    exact ends
  | error f v =>
    rw [run] at ends
    exact ⟨ends.1, ends.2.left, ends.2.times, ends.2.codes⟩

theorem atomically_ok {a : α} {v : World} :
    atomically x w = .ok a v ↔ ∃ u, x w = .ok a u ∧ turn u = .ok () v := by
  have whole : atomically x w = .ok a v ↔ closing x w = .ok a v := by
    unfold atomically
    cases closing x w with
    | ok b u => rfl
    | error f u => simp
  refine whole.trans (bind_ok.trans ?_)
  constructor
  · rintro ⟨b, u, run, rest⟩
    obtain ⟨_, u', last, done⟩ := bind_ok.mp rest
    cases done
    exact ⟨u, run, last⟩
  · rintro ⟨u, run, last⟩
    exact ⟨a, u, run, bind_ok.mpr ⟨(), v, last, rfl⟩⟩

theorem atomically_restores : (atomically x).Restores w := by
  unfold Restores Ends atomically
  cases closing x w with
  | ok a v => exact trivial
  | error f v => exact rfl

theorem mapFault_meets {g : Fault → Fault} (h : x.Meets w good bad)
    (others : ∀ f : Fault, f.FromOthers → (g f).FromOthers) :
    (mapFault g x).Meets w good (fun f => ∃ f', bad f' ∧ f = g f') := by
  intro alone
  have ends := h alone
  unfold Ends at ends ⊢
  unfold mapFault
  cases run : x w with
  | ok a v =>
    rw [run] at ends
    exact ends
  | error f v =>
    rw [run] at ends
    refine ⟨?_, ends.2⟩
    rcases ends.1 with account | disturbed
    · exact .inl ⟨f, account, rfl⟩
    · exact .inr ⟨disturbed.1, others f disturbed.2⟩

theorem mapFault_restores {g : Fault → Fault} (h : x.Restores w) : (mapFault g x).Restores w := by
  unfold Restores Ends mapFault at *
  cases run : x w with
  | ok a v => exact trivial
  | error f v =>
    rw [run] at h
    exact h

theorem nested_meets (h : ∀ v : World, v.tables = w.tables → w.Leads v → x.Meets v good bad) :
    (nested x).Meets w good bad :=
  turn_meets.bind fun _ v same lead => atomically_meets (h v same lead)

theorem nested_restores : (nested x).Restores w :=
  turn_keeps.restores fun _ _ _ => atomically_restores

end Whole

theorem asConflict_fromOthers (code : String) (f : Fault) (h : f.FromOthers) :
    (f.asConflict code).FromOthers := by
  unfold Fault.asConflict
  split
  · rename_i r
    split
    · exact .inr (.inl rfl)
    · exact .inl rfl
  · exact h

theorem noting_meets {x : Service α} {good : α → Tables → Prop} (writer : Journal.Writer)
    (text : Fault → String) (h : x.Meets w good bad) :
    (noting writer text x).Meets w good bad := by
  intro alone
  have ends := h alone
  unfold Ends at ends
  unfold Ends noting outcome
  cases run : x w with
  | ok a v =>
    rw [run] at ends
    simp only [bind, EStateM.bind, run]
    exact ends
  | error f v =>
    rw [run] at ends
    simp only [bind, EStateM.bind, run]
    exact ⟨ends.1, ends.2.left, ends.2.times, ends.2.codes⟩

/- Statements with values -/

theorem fits64_of_bounds {n : Int} (low : 0 ≤ n) (high : n < 2 ^ 63) : fits64 n = true := by
  simp only [fits64, Bool.and_eq_true, decide_eq_true_eq]
  omega

theorem large_of_unfit {n : Int} (low : 0 ≤ n) (unfit : fits64 n = false) : 2 ^ 63 ≤ n := by
  by_contra small
  rw [fits64_of_bounds low (Int.not_le.mp small)] at unfit
  cases unfit

/-- The fault of a whole number among those given that cannot be stored. -/
def Unfit (numbers : List Int) (f : Fault) : Prop :=
  f = .beyond64 ∧ ∃ n ∈ numbers, fits64 n = false

theorem not_unfit_nil (f : Fault) : ¬Unfit [] f := by
  rintro ⟨_, n, member, _⟩
  cases member

theorem turnWith_meets (numbers : List Int) :
    (turnWith numbers).Meets w (fun _ t => t = w.tables ∧ ∀ n ∈ numbers, fits64 n = true)
      (Unfit numbers) := by
  apply turn_meets.bind
  intro _ v same _
  by_cases fit : numbers.all fits64
  · simp only [fit]
    exact meets_pure ⟨same, List.all_eq_true.mp fit⟩
  · have wrong : ∃ n ∈ numbers, fits64 n = false := by
      simpa using fit
    simp only [fit]
    exact meets_throw ⟨rfl, wrong⟩

theorem query_meets (numbers : List Int) (read : Tables → α) :
    (query numbers read).Meets w
      (fun a t => t = w.tables ∧ a = read w.tables ∧ ∀ n ∈ numbers, fits64 n = true)
      (Unfit numbers) := by
  refine (turnWith_meets numbers).bind ?_
  rintro _ v ⟨same, fit⟩ _ _
  refine ⟨⟨same, ?_, fit⟩, .refl v⟩
  exact congrArg read same

theorem query_keeps (numbers : List Int) (read : Tables → α) : (query numbers read).Keeps := by
  refine Keeps.bind (turn_keeps.bind fun _ => ?_) fun _ => fun _ => rfl
  split
  · exact keeps_throw _
  · exact keeps_pure _

theorem turnWith_ok {numbers : List Int} {v : World} :
    turnWith numbers w = .ok () v ↔ turn w = .ok () v ∧ numbers.all fits64 = true := by
  have guard (u : World) : (if !numbers.all fits64 then throw .beyond64 else pure () :
      Service Unit) u = .ok () v ↔ u = v ∧ numbers.all fits64 = true := by
    cases numbers.all fits64 with
    | true => simp [pure, EStateM.pure]
    | false => simp [throw_run]
  apply bind_ok.trans
  constructor
  · rintro ⟨_, u, run, rest⟩
    obtain ⟨rfl, fit⟩ := (guard u).mp rest
    exact ⟨run, fit⟩
  · rintro ⟨run, fit⟩
    exact ⟨(), v, run, (guard v).mpr ⟨rfl, fit⟩⟩

theorem query_ok {numbers : List Int} {read : Tables → α} {a : α} {v : World} :
    query numbers read w = .ok a v ↔
      turn w = .ok () v ∧ numbers.all fits64 = true ∧ a = read v.tables := by
  apply bind_ok.trans
  constructor
  · rintro ⟨_, u, run, rest⟩
    cases rest
    exact ⟨(turnWith_ok.mp run).1, (turnWith_ok.mp run).2, rfl⟩
  · rintro ⟨run, fit, rfl⟩
    exact ⟨(), v, turnWith_ok.mpr ⟨run, fit⟩, rfl⟩

theorem query_unfit {numbers : List Int} {v : World} (free : turn w = .ok () v)
    (unfit : numbers.all fits64 = false) (read : Tables → α) :
    query numbers read w = .error .beyond64 v := by
  have told : turnWith numbers w = .error .beyond64 v := by
    rw [turnWith, bind_of_run free, unfit]
    rfl
  exact bind_error.mpr (.inl told)

theorem change_meets (f : Tables → Except Violation (α × Tables)) :
    (change f).Meets w (fun a t => f w.tables = .ok (a, t))
      (fun g => ∃ v, f w.tables = .error v ∧ g = .violated v) := by
  intro _
  unfold Ends change
  cases result : f w.tables with
  | ok r => exact ⟨rfl, .of_eq rfl rfl (Nat.le_refl _)⟩
  | error v => exact ⟨.inl ⟨v, rfl, rfl⟩, .refl w⟩

def Breaks {γ : Type} (numbers : List Int) (write : Except Violation γ) (f : Fault) : Prop :=
  Unfit numbers f ∨ (∀ n ∈ numbers, fits64 n = true) ∧ ∃ v, write = .error v ∧ f = .violated v

theorem command_meets (numbers : List Int) (f : Tables → Except Violation (α × Tables)) :
    (command numbers f).Meets w
      (fun a t => f w.tables = .ok (a, t) ∧ ∀ n ∈ numbers, fits64 n = true)
      (Breaks numbers (f w.tables)) := by
  refine ((turnWith_meets numbers).mono (fun _ _ h => h) fun _ h => .inl h).bind ?_
  rintro _ v ⟨same, fit⟩ _
  refine (change_meets f).mono ?_ ?_
  · intro a t h
    exact ⟨same ▸ h, fit⟩
  · rintro g ⟨v, h, eq⟩
    exact .inr ⟨fit, v, same ▸ h, eq⟩

theorem silent_ok {f : Tables → Except Violation Tables} {t t' : Tables} {u : Unit} :
    silent f t = .ok (u, t') ↔ f t = .ok t' := by
  unfold silent
  cases f t <;> simp [Except.map]

theorem silent_error {f : Tables → Except Violation Tables} {t : Tables} {v : Violation} :
    silent f t = .error v ↔ f t = .error v := by
  unfold silent
  cases f t <;> simp [Except.map]

theorem silent_breaks {f : Tables → Except Violation Tables} {t : Tables} {numbers : List Int}
    {g : Fault} : Breaks numbers (silent f t) g ↔ Breaks numbers (f t) g := by
  unfold Breaks silent
  cases f t <;> simp [Except.map]

end Service
end Stockroom
