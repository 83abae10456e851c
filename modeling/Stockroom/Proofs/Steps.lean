import Stockroom.Store.Statements

/-! What holds where a step of the service ends.
A step meets a contract at a state when its result fits the tables after it, and its fault is
either one that the tables account for or one that others caused. All of it is said for a
service that is alone: others may hold the lock, refuse statements and be faster, but they do
not write. Contracts are closed under sequence, so each function needs one, from those of the
functions it calls. -/
namespace Stockroom

/- What is left of the disruptions -/

namespace Disruptions

/-- Nobody else writes to the tables. -/
def Alone (d : Disruptions) : Prop := (∀ x ∈ d.steals, x = none) ∧ d.expiries = []

/-- No statement is refused and nobody is faster; the clock may still move. -/
structure Quiet (d : Disruptions) : Prop where
  unlocked : d.tablesLocked = false
  statements : ∀ x ∈ d.statements, x = none
  rowLocks : ∀ x ∈ d.rowLocks, x = none
  lostSwaps : ∀ x ∈ d.lostSwaps, x = false
  unseen : ∀ x ∈ d.unseen, x = false
  alone : d.Alone

/-- The second is what is left of the first after some of it was used up. -/
structure Leaves (d d' : Disruptions) : Prop where
  locked : d'.tablesLocked = d.tablesLocked
  statements : d'.statements ⊆ d.statements
  rowLocks : d'.rowLocks ⊆ d.rowLocks
  lostSwaps : d'.lostSwaps ⊆ d.lostSwaps
  unseen : d'.unseen ⊆ d.unseen
  steals : d'.steals ⊆ d.steals
  expiries : d'.expiries ⊆ d.expiries
  ticks : d'.ticks ⊆ d.ticks

theorem Leaves.refl (d : Disruptions) : d.Leaves d :=
  ⟨rfl, List.Subset.refl _, List.Subset.refl _, List.Subset.refl _, List.Subset.refl _,
    List.Subset.refl _, List.Subset.refl _, List.Subset.refl _⟩

theorem Leaves.of_ticks {d : Disruptions} {ticks : List Moment} (sub : ticks ⊆ d.ticks) :
    d.Leaves { d with ticks } :=
  { Leaves.refl d with ticks := sub }

theorem Leaves.trans {d e f : Disruptions} (first : d.Leaves e) (second : e.Leaves f) :
    d.Leaves f where
  locked := second.locked.trans first.locked
  statements := List.Subset.trans second.statements first.statements
  rowLocks := List.Subset.trans second.rowLocks first.rowLocks
  lostSwaps := List.Subset.trans second.lostSwaps first.lostSwaps
  unseen := List.Subset.trans second.unseen first.unseen
  steals := List.Subset.trans second.steals first.steals
  expiries := List.Subset.trans second.expiries first.expiries
  ticks := List.Subset.trans second.ticks first.ticks

theorem Leaves.alone {d e : Disruptions} (left : d.Leaves e) (h : d.Alone) : e.Alone := by
  refine ⟨fun x hx => h.1 x (left.steals hx), ?_⟩
  have left_expiries := left.expiries
  rw [h.2] at left_expiries
  exact List.subset_nil.mp left_expiries

theorem Leaves.quiet {d e : Disruptions} (left : d.Leaves e) (h : d.Quiet) : e.Quiet where
  unlocked := left.locked.trans h.unlocked
  statements := fun x hx => h.statements x (left.statements hx)
  rowLocks := fun x hx => h.rowLocks x (left.rowLocks hx)
  lostSwaps := fun x hx => h.lostSwaps x (left.lostSwaps hx)
  unseen := fun x hx => h.unseen x (left.unseen hx)
  alone := left.alone h.alone

end Disruptions

namespace World

def clock (w : World) : Moment := w.disruptions.ticks.headD w.now

def times (w : World) : List Moment := w.now :: w.disruptions.ticks

def Alone (w : World) : Prop := w.disruptions.Alone

def Quiet (w : World) : Prop := w.disruptions.Quiet

/-- The second state may come after the first: disruptions were used up, the clock went on and
codes were given. Of the tables nothing is said. -/
structure Leads (w w' : World) : Prop where
  left : w.disruptions.Leaves w'.disruptions
  times : w'.times ⊆ w.times
  codes : w.codesGiven ≤ w'.codesGiven

theorem Leads.refl (w : World) : w.Leads w := ⟨.refl _, List.Subset.refl _, Nat.le_refl _⟩

theorem Leads.trans {u v w : World} (first : u.Leads v) (second : v.Leads w) : u.Leads w where
  left := first.left.trans second.left
  times := List.Subset.trans second.times first.times
  codes := Nat.le_trans first.codes second.codes

theorem Leads.alone {v w : World} (h : v.Leads w) (alone : v.Alone) : w.Alone :=
  h.left.alone alone

theorem Leads.quiet {v w : World} (h : v.Leads w) (quiet : v.Quiet) : w.Quiet :=
  h.left.quiet quiet

/-- Nobody disturbs, and the clock stands still. -/
def Still (w : World) : Prop := w.Quiet ∧ w.disruptions.ticks = []

theorem Leads.still {v w : World} (h : v.Leads w) (still : v.Still) : w.Still := by
  refine ⟨h.quiet still.1, ?_⟩
  have left_ticks := h.left.ticks
  rw [still.2] at left_ticks
  exact List.subset_nil.mp left_ticks

theorem Still.times {w : World} (still : w.Still) : w.times = [w.now] := by
  rw [World.times, still.2]

theorem Leads.now {v w : World} (h : v.Leads w) (still : v.Still) : w.now = v.now := by
  have shown := h.times
  rw [still.times, (h.still still).times] at shown
  simpa using shown

theorem Leads.of_eq {v w : World} (disruptions : w.disruptions = v.disruptions)
    (now : w.now = v.now) (codes : v.codesGiven ≤ w.codesGiven) : v.Leads w := by
  refine ⟨disruptions ▸ .refl _, ?_, codes⟩
  rw [World.times, World.times, disruptions, now]
  exact List.Subset.refl _

theorem clock_mem_times (w : World) : w.clock ∈ w.times := by
  unfold clock times
  cases w.disruptions.ticks with
  | nil => exact List.mem_cons_self
  | cons m rest => exact List.mem_cons_of_mem _ List.mem_cons_self

end World

/-- The faults that others can cause: refusals, conflicts over a row, and waits between
attempts that cannot be computed. -/
def Fault.FromOthers (f : Fault) : Prop :=
  f.kind = .refused ∨ f.kind = .concurrencyConflict ∨ f.kind = .outOfRange

def World.Disturbs (w : World) (f : Fault) : Prop := ¬w.Quiet ∧ f.FromOthers

theorem World.Leads.disturbs {v w : World} {f : Fault} (h : v.Leads w) (d : w.Disturbs f) :
    v.Disturbs f :=
  ⟨fun quiet => d.1 (h.quiet quiet), d.2⟩

namespace Service

variable {α β : Type} {x : Service α} {w : World}

/- Ends -/

/-- What holds of the result and the state after it, or of the fault and the state. -/
def Ends (x : Service α) (w : World) (good : α → World → Prop) (bad : Fault → World → Prop) :
    Prop :=
  match x w with
  | .ok a w' => good a w'
  | .error f w' => bad f w'

section Ends

variable {good good' : α → World → Prop} {bad bad' : Fault → World → Prop}

theorem Ends.mono (h : x.Ends w good bad) (onGood : ∀ a w', good a w' → good' a w')
    (onBad : ∀ f w', bad f w' → bad' f w') : x.Ends w good' bad' := by
  unfold Ends at h ⊢
  split at h
  · exact onGood _ _ h
  · exact onBad _ _ h

theorem Ends.and (h : x.Ends w good bad) (h' : x.Ends w good' bad') :
    x.Ends w (fun a w' => good a w' ∧ good' a w') (fun f w' => bad f w' ∧ bad' f w') := by
  unfold Ends at h h' ⊢
  cases run : x w with
  | ok a v =>
    rw [run] at h h'
    exact ⟨h, h'⟩
  | error f v =>
    rw [run] at h h'
    exact ⟨h, h'⟩

theorem Ends.of_ok {a : α} {w' : World} (h : x.Ends w good bad) (run : x w = .ok a w') :
    good a w' := by
  simpa [Ends, run] using h

theorem Ends.of_error {f : Fault} {w' : World} (h : x.Ends w good bad)
    (run : x w = .error f w') : bad f w' := by
  simpa [Ends, run] using h

theorem ends_bind {f : α → Service β} {good : β → World → Prop} :
    (x >>= f).Ends w good bad ↔ x.Ends w (fun a w' => (f a).Ends w' good bad) bad := by
  simp only [Ends, bind, EStateM.bind]
  cases x w <;> rfl

theorem ends_map {g : α → β} {good : β → World → Prop} :
    (g <$> x).Ends w good bad ↔ x.Ends w (fun a v => good (g a) v) bad := by
  rw [map_eq_pure_bind, ends_bind]
  rfl

theorem throw_run (f : Fault) (w : World) : (throw f : Service α) w = .error f w := rfl

theorem bind_of_run {f : α → Service β} {a : α} {v : World} (run : x w = .ok a v) :
    (x >>= f) w = f a v := by
  simp only [bind, EStateM.bind, run]

theorem bind_ok {f : α → Service β} {b : β} {w' : World} :
    (x >>= f) w = .ok b w' ↔ ∃ a v, x w = .ok a v ∧ f a v = .ok b w' := by
  simp only [bind, EStateM.bind]
  cases x w with
  | error f v => simp
  | ok a v =>
    constructor
    · exact fun h => ⟨a, v, rfl, h⟩
    · rintro ⟨a, v, h, rest⟩
      cases h
      exact rest

theorem bind_error {f : α → Service β} {g : Fault} {w' : World} :
    (x >>= f) w = .error g w' ↔
      x w = .error g w' ∨ ∃ a v, x w = .ok a v ∧ f a v = .error g w' := by
  simp only [bind, EStateM.bind]
  cases x w with
  | error f v => simp
  | ok a v =>
    constructor
    · exact fun h => .inr ⟨a, v, rfl, h⟩
    · rintro (h | ⟨a, v, h, rest⟩)
      · cases h
      · cases h
        exact rest

theorem map_ok {g : α → β} {a : α} {w' : World} (run : x w = .ok a w') :
    (g <$> x) w = .ok (g a) w' := by
  rw [map_eq_pure_bind]
  exact bind_ok.mpr ⟨a, w', run, rfl⟩

theorem map_error {g : α → β} {f : Fault} {w' : World} :
    (g <$> x) w = .error f w' ↔ x w = .error f w' := by
  rw [map_eq_pure_bind, bind_error]
  constructor
  · rintro (failed | ⟨a, v, _, rest⟩)
    · exact failed
    · cases rest
  · exact .inl

end Ends

/- Contracts -/

/-- A result that fits the tables after it, or a fault that is accounted for or caused by
others. -/
def Meets (x : Service α) (w : World) (good : α → Tables → Prop) (bad : Fault → Prop) : Prop :=
  w.Alone → x.Ends w (fun a w' => good a w'.tables ∧ w.Leads w')
    (fun f w' => (bad f ∨ w.Disturbs f) ∧ w.Leads w')

def Restores (x : Service α) (w : World) : Prop :=
  x.Ends w (fun _ _ => True) (fun _ w' => w'.tables = w.tables)

section Meets

variable {good good' : α → Tables → Prop} {bad bad' : Fault → Prop}

theorem Meets.mono (h : x.Meets w good bad) (onGood : ∀ a t, good a t → good' a t)
    (onBad : ∀ f, bad f → bad' f) : x.Meets w good' bad' := fun alone =>
  (h alone).mono (fun a _ hg => ⟨onGood a _ hg.1, hg.2⟩)
    (fun f _ hb => ⟨hb.1.imp_left (onBad f), hb.2⟩)

theorem Meets.absorb (h : x.Meets w good (fun f => bad f ∨ w.Disturbs f)) : x.Meets w good bad :=
  fun alone => (h alone).mono (fun _ _ hg => hg)
    fun _ _ hb => ⟨hb.1.elim (fun account => account) .inr, hb.2⟩

theorem meets_pure {a : α} (h : good a w.tables) : (pure a : Service α).Meets w good bad :=
  fun _ => ⟨h, .refl w⟩

theorem meets_throw {f : Fault} (h : bad f) : (throw f : Service α).Meets w good bad :=
  fun _ => ⟨.inl h, .refl w⟩

/-- The sequence of two steps, the second knowing how the first ran. -/
theorem Meets.bind_run {f : α → Service β} {good : β → Tables → Prop} {mid : α → Tables → Prop}
    (first : x.Meets w mid bad)
    (second : ∀ a v, x w = .ok a v → mid a v.tables → w.Leads v → (f a).Meets v good bad) :
    (x >>= f).Meets w good bad := by
  intro alone
  have start := first alone
  apply ends_bind.mpr
  unfold Ends at start ⊢
  cases run : x w with
  | ok a v =>
    simp only [run] at start ⊢
    obtain ⟨fits, lead⟩ := start
    refine (second a v run fits lead (lead.alone alone)).mono ?_ ?_
    · exact fun b w' h => ⟨h.1, lead.trans h.2⟩
    · exact fun g w' h => ⟨h.1.imp_right lead.disturbs, lead.trans h.2⟩
  | error g v =>
    simp only [run] at start ⊢
    exact start

theorem Meets.bind {f : α → Service β} {good : β → Tables → Prop} {mid : α → Tables → Prop}
    (first : x.Meets w mid bad)
    (second : ∀ a v, mid a v.tables → w.Leads v → (f a).Meets v good bad) :
    (x >>= f).Meets w good bad :=
  first.bind_run fun a v _ => second a v

theorem meets_map {f : α → β} {good : β → Tables → Prop}
    (h : x.Meets w (fun a t => good (f a) t) bad) : (f <$> x).Meets w good bad := by
  rw [map_eq_pure_bind]
  exact h.bind fun a v hg _ => meets_pure hg

theorem meets_guard {c : Prop} [Decidable c] {f : Fault} {rest : Unit → Service α}
    (thrown : c → bad f) (passed : ¬c → (rest ()).Meets w good bad) :
    (if c then (throw f >>= rest) else rest ()).Meets w good bad := by
  split
  · rename_i h
    have stop : (throw f : Service Unit).Meets w (fun _ _ => False) bad := meets_throw (thrown h)
    exact stop.bind fun _ _ h => h.elim
  · rename_i h
    exact passed h

theorem meets_ite {c : Prop} [Decidable c] {y : Service α}
    (yes : c → x.Meets w good bad) (no : ¬c → y.Meets w good bad) :
    (if c then x else y).Meets w good bad := by
  split
  · rename_i h
    exact yes h
  · rename_i h
    exact no h

end Meets

/- Steps that leave the tables alone -/

/-- A step that leaves the tables alone, whether or not it fails. -/
def Keeps (x : Service α) : Prop :=
  ∀ w, x.Ends w (fun _ v => v.tables = w.tables) (fun _ v => v.tables = w.tables)

theorem Keeps.bind {f : α → Service β} (first : x.Keeps) (second : ∀ a, (f a).Keeps) :
    (x >>= f).Keeps := by
  intro w
  refine ends_bind.mpr ((first w).mono ?_ fun _ _ same => same)
  intro a v same
  exact (second a v).mono (fun _ _ h => h.trans same) fun _ _ h => h.trans same

theorem keeps_map {g : α → β} (h : x.Keeps) : (g <$> x).Keeps := fun w => ends_map.mpr (h w)

theorem keeps_pure (a : α) : (pure a : Service α).Keeps := fun _ => rfl

theorem keeps_throw (f : Fault) : (throw f : Service α).Keeps := fun _ => rfl

theorem Keeps.restores {f : β → Service α} {y : Service β} (keeps : y.Keeps)
    (rest : ∀ b v, v.tables = w.tables → (f b).Restores v) : (y >>= f).Restores w := by
  refine ends_bind.mpr ((keeps w).mono ?_ fun _ _ h => h)
  intro b v kept
  exact (rest b v kept).mono (fun _ _ h => h) fun _ _ h => h.trans kept

theorem restores_guard {c : Prop} [Decidable c] {f : Fault} {rest : Unit → Service α}
    (passed : (rest ()).Restores w) :
    (if c then (throw f >>= rest) else rest ()).Restores w := by
  split
  · exact rfl
  · exact passed

/- Steps that cannot fail -/

/-- A step that ends with a result, whatever the state, and leaves the tables alone. -/
def Passes (x : Service α) (a : α) : Prop :=
  ∀ w, ∃ v, x w = .ok a v ∧ v.tables = w.tables ∧ w.Leads v

section Passes

variable {a : α} {f : α → Service β} {g : α → β}

theorem passes_pure (a : α) : (pure a : Service α).Passes a := fun w => ⟨w, rfl, rfl, .refl w⟩

theorem Passes.bind {b : β} (first : x.Passes a) (second : (f a).Passes b) :
    (x >>= f).Passes b := by
  intro w
  obtain ⟨v, run, same, lead⟩ := first w
  obtain ⟨u, run', same', lead'⟩ := second v
  exact ⟨u, bind_ok.mpr ⟨a, v, run, run'⟩, same'.trans same, lead.trans lead'⟩

theorem Passes.ne_error {f : Fault} {v : World} (h : x.Passes a) : x w ≠ .error f v := by
  obtain ⟨u, run, _⟩ := h w
  rw [run]
  simp

theorem Passes.before {good : β → World → Prop} {bad : Fault → World → Prop} (h : x.Passes a)
    (rest : ∀ v, v.tables = w.tables → w.Leads v → (f a).Ends v good bad) :
    (x >>= f).Ends w good bad := by
  obtain ⟨v, run, same, lead⟩ := h w
  apply ends_bind.mpr
  rw [Ends, run]
  exact rest v same lead

theorem Passes.meets {bad : Fault → Prop} (h : x.Passes a) :
    x.Meets w (fun b t => b = a ∧ t = w.tables) bad := by
  intro _
  obtain ⟨v, run, same, lead⟩ := h w
  rw [Ends, run]
  exact ⟨⟨rfl, same⟩, lead⟩

theorem Meets.followed {good : β → Tables → Prop} {bad : Fault → Prop}
    (h : x.Meets w (fun a t => good (g a) t) bad) (tail : ∀ a, (f a).Passes (g a)) :
    (x >>= f).Meets w good bad := by
  refine h.bind fun a v fits _ => (tail a).meets.mono ?_ fun _ h => h
  rintro b t ⟨rfl, rfl⟩
  exact fits

theorem Restores.followed (h : x.Restores w) (tail : ∀ a, (f a).Passes (g a)) :
    (x >>= f).Restores w := by
  refine ends_bind.mpr (h.mono ?_ fun _ _ kept => kept)
  intro a v _
  obtain ⟨u, run, _⟩ := tail a v
  rw [Ends, run]
  exact trivial

end Passes

end Service
end Stockroom
