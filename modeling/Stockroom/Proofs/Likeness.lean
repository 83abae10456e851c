import Stockroom.Proofs.Leaving
import Stockroom.Service.Sweep

/-! Steps that cannot tell two states apart.
A step that ends in related states with the same result, wherever it begins in related states,
does not depend on what the relation leaves open. This is closed under sequence, so for the
expiry of an order it comes down to the statements it is made of. Two undisturbed states are
alike when they hold the same tables and show the same times; journals, waits and codes may
differ, and snapshots as far as a relation allows. -/
namespace Stockroom

/-- The same result or the same fault, in states that are related. -/
def EndsAlike {α : Type} (R : World → World → Prop) :
    EStateM.Result Fault World α → EStateM.Result Fault World α → Prop
  | .ok a w, .ok b v => a = b ∧ R w v
  | .error f w, .error g v => f = g ∧ R w v
  | _, _ => False

/- Undisturbed states -/

class Evictable (S : Recent → Recent → Prop) : Prop where
  evict : ∀ {r s : Recent} (code : String), S r s → S (r.evict code) (s.evict code)

instance : Evictable Eq := ⟨fun code same => congrArg (Recent.evict · code) same⟩

instance : Evictable fun _ _ => True := ⟨fun _ _ => trivial⟩

structure World.Alike (S : Recent → Recent → Prop) (w v : World) : Prop where
  tables : v.tables = w.tables
  snapshots : S w.snapshots v.snapshots
  now : v.now = w.now
  ticks : v.disruptions.ticks = w.disruptions.ticks
  quiet : w.Quiet
  quiet' : v.Quiet

section

variable {α : Type} {S : Recent → Recent → Prop} {u v w : World}

theorem World.Quiet.alike (quiet : w.Quiet) : w.Alike Eq w := ⟨rfl, rfl, rfl, rfl, quiet, quiet⟩

theorem World.Alike.before (first : u.Alike Eq w) (second : u.Alike S v) : w.Alike S v where
  tables := second.tables.trans first.tables.symm
  snapshots := first.snapshots ▸ second.snapshots
  now := second.now.trans first.now.symm
  ticks := second.ticks.trans first.ticks.symm
  quiet := first.quiet'
  quiet' := second.quiet'

theorem World.Alike.after (first : w.Alike S u) (second : u.Alike Eq v) : w.Alike S v where
  tables := second.tables.trans first.tables
  snapshots := second.snapshots ▸ first.snapshots
  now := second.now.trans first.now
  ticks := second.ticks.trans first.ticks
  quiet := first.quiet
  quiet' := second.quiet'

theorem World.Alike.still (alike : w.Alike S v) (still : w.Still) : v.Still :=
  ⟨alike.quiet', alike.ticks.trans still.2⟩

/-- What a run shows to others: its answer, the tables and the snapshots. -/
def shownBy : EStateM.Result Fault World α → Except Fault α × Tables × Recent
  | .ok a w => (.ok a, w.tables, w.snapshots)
  | .error f w => (.error f, w.tables, w.snapshots)

theorem EndsAlike.shown {r r' : EStateM.Result Fault World α}
    (h : EndsAlike (World.Alike Eq) r r') :
    shownBy r = shownBy r' := by
  cases r <;> cases r'
  · obtain ⟨rfl, alike⟩ := h
    rw [shownBy, shownBy, alike.tables, alike.snapshots]
  · exact h.elim
  · exact h.elim
  · obtain ⟨rfl, alike⟩ := h
    rw [shownBy, shownBy, alike.tables, alike.snapshots]

theorem EndsAlike.ok {R : World → World → Prop} {r : EStateM.Result Fault World α} {a : α}
    (h : EndsAlike R r (.ok a v)) : ∃ u, r = .ok a u ∧ R u v := by
  cases r with
  | ok b u =>
    obtain ⟨rfl, alike⟩ := h
    exact ⟨u, rfl, alike⟩
  | error f u => exact h.elim

theorem World.Alike.symm (h : w.Alike Eq v) : v.Alike Eq w :=
  ⟨h.tables.symm, h.snapshots.symm, h.now.symm, h.ticks.symm, h.quiet', h.quiet⟩

theorem EndsAlike.symm {r r' : EStateM.Result Fault World α}
    (h : EndsAlike (World.Alike Eq) r r') : EndsAlike (World.Alike Eq) r' r := by
  cases r <;> cases r'
  · exact ⟨h.1.symm, h.2.symm⟩
  · exact h.elim
  · exact h.elim
  · exact ⟨h.1.symm, h.2.symm⟩

theorem EndsAlike.trans {r r' r'' : EStateM.Result Fault World α}
    (first : EndsAlike (World.Alike S) r r') (second : EndsAlike (World.Alike Eq) r' r'') :
    EndsAlike (World.Alike S) r r'' := by
  cases r <;> cases r' <;> cases r''
  all_goals
    first
    | exact first.elim
    | exact second.elim
    | exact ⟨first.1.trans second.1, first.2.after second.2⟩

end

namespace Service

variable {α β γ : Type} {R : World → World → Prop} {x y : Service α} {w v : World}

def Matches (R : World → World → Prop) (x y : Service α) : Prop :=
  ∀ w v : World, R w v → EndsAlike R (x w) (y v)

/- Steps as a whole -/

theorem endsAlike_bind {f g : α → Service β} (first : EndsAlike R (x w) (y v))
    (second : ∀ a w' v', x w = .ok a w' → y v = .ok a v' → R w' v' →
      EndsAlike R (f a w') (g a v')) : EndsAlike R ((x >>= f) w) ((y >>= g) v) := by
  simp only [bind, EStateM.bind]
  cases left : x w with
  | ok a w' =>
    cases right : y v with
    | ok b v' =>
      rw [left, right] at first
      obtain ⟨rfl, alike⟩ := first
      exact second a w' v' left right alike
    | error g v' =>
      rw [left, right] at first
      exact first.elim
  | error f w' =>
    cases right : y v with
    | ok b v' =>
      rw [left, right] at first
      exact first.elim
    | error g v' =>
      rw [left, right] at first
      exact first

theorem matches_pure (a : α) : (pure a : Service α).Matches R (pure a) :=
  fun _ _ alike => ⟨rfl, alike⟩

theorem matches_throw (f : Fault) : (throw f : Service α).Matches R (throw f) :=
  fun _ _ alike => ⟨rfl, alike⟩

theorem Matches.bind {f g : α → Service β} (first : x.Matches R y)
    (second : ∀ a, (f a).Matches R (g a)) : (x >>= f).Matches R (y >>= g) := fun w v alike =>
  endsAlike_bind (first w v alike) fun a w' v' _ _ alike => second a w' v' alike

theorem Matches.map {f : α → β} (h : x.Matches R y) : (f <$> x).Matches R (f <$> y) := by
  rw [map_eq_pure_bind, map_eq_pure_bind]
  exact h.bind fun _ => matches_pure _

theorem matches_guard {c : Prop} [Decidable c] {f : Fault} {rest rest' : Unit → Service α}
    (passed : (rest ()).Matches R (rest' ())) :
    Matches R (if c then (throw f >>= rest) else rest ())
      (if c then (throw f >>= rest') else rest' ()) := by
  split
  · exact fun _ _ alike => ⟨rfl, alike⟩
  · exact passed

theorem matches_forM {f : β → Service Unit} (each : ∀ b, (f b).Matches R (f b)) (bs : List β) :
    (bs.forM f).Matches R (bs.forM f) := by
  induction bs with
  | nil => exact matches_pure ()
  | cons b bs ih => exact (each b).bind fun _ => ih

theorem matches_foldlM {f : α → β → Service α} (each : ∀ a b, (f a b).Matches R (f a b))
    (bs : List β) (a : α) : (bs.foldlM f a).Matches R (bs.foldlM f a) := by
  induction bs generalizing a with
  | nil => exact matches_pure a
  | cons b bs ih =>
    rw [List.foldlM_cons]
    exact (each a b).bind ih

theorem Matches.outcome (h : x.Matches R y) : (outcome x).Matches R (outcome y) := by
  intro w v alike
  have ends := h w v alike
  unfold Service.outcome
  cases left : x w <;> cases right : y v <;> rw [left, right] at ends
  · exact ⟨congrArg _ ends.1, ends.2⟩
  · exact ends.elim
  · exact ends.elim
  · exact ⟨congrArg _ ends.1, ends.2⟩

theorem Matches.mapFault {h : Fault → Fault} (m : x.Matches R y) :
    (mapFault h x).Matches R (mapFault h y) := by
  intro w v alike
  have ends := m w v alike
  unfold Service.mapFault
  cases left : x w <;> cases right : y v <;> rw [left, right] at ends
  · exact ends
  · exact ends.elim
  · exact ends.elim
  · exact ⟨congrArg h ends.1, ends.2⟩

theorem ofExcept_matches (e : Except Fault α) : (ofExcept e).Matches R (ofExcept e) := by
  cases e with
  | ok a => exact matches_pure a
  | error f => exact matches_throw f

theorem refuse_matches (r : Option Refusal) : (refuse r).Matches R (refuse r) := by
  cases r with
  | none => exact matches_pure ()
  | some r => exact matches_throw _

theorem later_matches (m : Moment) (span : Span) : (later m span).Matches R (later m span) := by
  unfold later
  split
  · exact matches_pure _
  · exact matches_throw _

/-- A relation that shows the tables and that all the parts of an expiry keep. -/
class Kept (R : World → World → Prop) : Prop where
  tables {w v : World} : R w v → v.tables = w.tables
  store {w v : World} (t : Tables) : R w v → R { w with tables := t } { v with tables := t }
  write {w v : World} (j k : List Journal.Entry) :
    R w v → R { w with journal := j } { v with journal := k }
  wait {w v : World} (b : Binary64) :
    R w v → R { w with waits := w.waits ++ [b] } { v with waits := v.waits ++ [b] }
  evict {w v : World} (code : String) : R w v →
    R { w with snapshots := w.snapshots.evict code } { v with snapshots := v.snapshots.evict code }
  now : now.Matches R now
  turn : turn.Matches R turn
  rowLock : Matches R (disruption none (·.rowLocks) fun d l => { d with rowLocks := l })
    (disruption none (·.rowLocks) fun d l => { d with rowLocks := l })
  steal : Matches R (disruption none (·.steals) fun d l => { d with steals := l })
    (disruption none (·.steals) fun d l => { d with steals := l })
  expiry (id : Int) : (expiryDisruption id).Matches R (expiryDisruption id)

variable [Kept R]

theorem note_matches (writer writer' : Journal.Writer) (level level' : Journal.Level)
    (message message' : String) :
    (note writer level message).Matches R (note writer' level' message') := fun _ _ alike =>
  ⟨rfl, Kept.write _ _ alike⟩

theorem Matches.noting {writer : Journal.Writer} {text : Fault → String} (h : x.Matches R y) :
    (noting writer text x).Matches R (noting writer text y) := by
  refine h.outcome.bind fun result => ?_
  cases result with
  | ok a => exact matches_pure a
  | error f => exact (note_matches _ _ _ _ _ _).bind fun _ => matches_throw f

/- Statements -/

theorem turnWith_matches (numbers : List Int) :
    (turnWith numbers).Matches R (turnWith numbers) := by
  refine Kept.turn.bind fun _ => ?_
  split
  · exact matches_throw _
  · exact matches_pure _

theorem query_matches (numbers : List Int) (read : Tables → α) :
    (query numbers read).Matches R (query numbers read) := by
  refine (turnWith_matches numbers).bind fun _ w v alike => ?_
  change read w.tables = read v.tables ∧ _
  rw [Kept.tables alike]
  exact ⟨rfl, alike⟩

theorem change_matches (f : Tables → Except Violation (α × Tables)) :
    (change f).Matches R (change f) := by
  intro w v alike
  unfold change
  rw [Kept.tables alike]
  cases f w.tables with
  | ok r => exact ⟨rfl, Kept.store r.2 alike⟩
  | error b => exact ⟨rfl, alike⟩

theorem command_matches (numbers : List Int) (f : Tables → Except Violation (α × Tables)) :
    (command numbers f).Matches R (command numbers f) :=
  (turnWith_matches numbers).bind fun _ => change_matches f

theorem ordersOf_matches (rows : List OrderRow) : (ordersOf rows).Matches R (ordersOf rows) :=
  (query_matches _ _).bind fun _ => (ofExcept_matches _).bind fun _ => ofExcept_matches _

theorem ordersWithIds_matches (ids : List Int) :
    (ordersWithIds ids).Matches R (ordersWithIds ids) := by
  unfold ordersWithIds
  split
  · exact matches_pure _
  · exact (query_matches _ _).bind fun _ => ordersOf_matches _

theorem lockProduct_matches (code : String) : (lockProduct code).Matches R (lockProduct code) := by
  refine Kept.rowLock.bind fun r => (refuse_matches r).bind fun _ => ?_
  refine (query_matches _ _).bind fun row => ?_
  cases row with
  | none => exact matches_pure none
  | some r => exact (ofExcept_matches _).map

theorem moveStatus_matches (id : Int) (expected target : OrderStatus) (m : Moment) :
    (moveStatus id expected target m).Matches R (moveStatus id expected target m) := by
  refine Kept.steal.bind fun stolen => ?_
  cases stolen with
  | none => exact (matches_pure ()).bind fun _ => command_matches _ _
  | some stolen =>
    refine (command_matches _ _).bind fun _ => ?_
    exact (matches_pure ()).bind fun _ => command_matches _ _

/- Transactions -/

theorem Matches.atomically (h : x.Matches R y) : (atomically x).Matches R (atomically y) := by
  have closed : (closing x).Matches R (closing y) :=
    h.bind fun a => Kept.turn.bind fun _ => matches_pure a
  intro w v alike
  have ends := closed w v alike
  unfold Service.atomically
  rw [Kept.tables alike]
  cases left : closing x w <;> cases right : closing y v <;> rw [left, right] at ends
  · exact ends
  · exact ends.elim
  · exact ends.elim
  · exact ⟨ends.1, Kept.store w.tables ends.2⟩

theorem Matches.continueFrom {s : Settings.Attempts} (h : x.Matches R y) (further n : Nat) :
    Matches R (Attempts.continueFrom s (paused s) x further n)
      (Attempts.continueFrom s (paused s) y further n) := by
  induction further using Nat.strongRecOn generalizing n with
  | ind further ih =>
    intro w v alike
    have first := h w v alike
    rw [Attempts.continueFrom.eq_def, Attempts.continueFrom.eq_def]
    cases left : x w <;> cases right : y v <;> rw [left, right] at first
    · simpa only [left, right] using first
    · exact first.elim
    · exact first.elim
    · obtain ⟨rfl, after⟩ := first
      simp only [left, right]
      split
      · split
        · exact ⟨rfl, after⟩
        · exact ⟨rfl, after⟩
        · rename_i more wait
          refine ih more (Nat.lt_succ_self more) (n + 1) _ _ ?_
          exact Kept.write _ _ (Kept.wait _ after)
      · exact ⟨rfl, after⟩

/- Expiry -/

theorem writeLocked_matches (code : String) (compute : Product → Except Fault Int) :
    (writeLocked code compute).Matches R (writeLocked code compute) := by
  refine (lockProduct_matches code).bind fun p => ?_
  cases p with
  | none => exact matches_throw _
  | some p =>
    refine (ofExcept_matches _).bind fun quantity => Kept.now.bind fun m => ?_
    exact (command_matches _ _).bind fun _ => matches_pure _

theorem dropSnapshot_matches (code : String) :
    (dropSnapshot code).Matches R (dropSnapshot code) := fun _ _ alike =>
  ⟨rfl, Kept.evict code alike⟩

theorem dropSnapshots_matches (codes : List String) :
    (dropSnapshots codes).Matches R (dropSnapshots codes) :=
  matches_forM dropSnapshot_matches codes

theorem mutateStock_matches (s : Settings.Attempts) (code : String)
    (compute : Product → Except Fault Int) :
    (mutateStock s code compute).Matches R (mutateStock s code compute) := by
  have attempt : (stockAttempt code compute).Matches R (stockAttempt code compute) :=
    (Kept.turn.bind fun _ => (writeLocked_matches code compute).atomically).mapFault
  exact (attempt.continueFrom _ _).bind fun p =>
    (dropSnapshot_matches code).bind fun _ => matches_pure p

theorem release_matches (s : Settings.Attempts) (code : String) (quantity : Int) :
    (release s code quantity).Matches R (release s code quantity) := by
  unfold release
  refine matches_guard ?_
  exact (mutateStock_matches s code _).bind fun _ => note_matches _ _ _ _ _ _

theorem expireNow_matches (s : Settings.Attempts) (order : Order) :
    (expireNow s order).Matches R (expireNow s order) := by
  refine Kept.now.bind fun m => (moveStatus_matches _ _ _ _).bind fun won => ?_
  cases won with
  | true =>
    refine (matches_forM (fun line => (release_matches s _ _).noting) order.lines).bind fun _ => ?_
    exact (note_matches _ _ _ _ _ _).bind fun _ => matches_pure true
  | false => exact (note_matches _ _ _ _ _ _).bind fun _ => matches_pure false

theorem expireIfDue_matches (s : Settings.Attempts) (id : Int) :
    (expireIfDue s id).Matches R (expireIfDue s id) := by
  refine ((ordersWithIds_matches [id]).bind fun os => matches_pure os.head?).bind fun order => ?_
  cases order with
  | none => exact matches_pure none
  | some order =>
    refine Matches.bind (Kept.now.bind fun m => ?_) fun won => ?_
    · split
      · exact matches_pure false
      · exact expireNow_matches s order
    · cases won with
      | true => exact matches_pure (some order)
      | false => exact matches_pure none

theorem disruptExpiry_matches (id : Int) : (disruptExpiry id).Matches R (disruptExpiry id) := by
  refine (Kept.expiry id).bind fun befalls => ?_
  cases befalls with
  | none => exact matches_pure ()
  | some befalls =>
    cases befalls with
    | fails => exact matches_throw _
    | moved target =>
      refine Kept.now.bind fun m => ?_
      exact (command_matches _ _).atomically.bind fun _ => matches_pure ()

theorem expireOrder_matches (s : Settings.Attempts) (id : Int) :
    (expireOrder s id).Matches R (expireOrder s id) := by
  refine (disruptExpiry_matches id).bind fun _ => ?_
  refine (expireIfDue_matches s id).atomically.bind fun order => ?_
  cases order with
  | none => exact matches_pure false
  | some order => exact (dropSnapshots_matches _).bind fun _ => matches_pure true

/- Sweeps -/

theorem sweepOrder_matches (s : Settings.Attempts) (count : SweepCount) (order : Order) :
    (sweepOrder s count order).Matches R (sweepOrder s count order) := by
  refine Kept.now.bind fun m => ?_
  split
  · exact matches_pure count
  · refine (expireOrder_matches s order.id).outcome.bind fun result => ?_
    rcases result with f | won
    · exact (note_matches _ _ _ _ _ _).bind fun _ => matches_pure _
    · cases won with
      | true => exact matches_pure _
      | false => exact matches_pure _

theorem sweepBatch_matches (s : Settings.Attempts) (count : SweepCount) (ids : List Int) :
    (sweepBatch s count ids).Matches R (sweepBatch s count ids) :=
  (ordersWithIds_matches ids).bind fun os => matches_foldlM (sweepOrder_matches s) os count

theorem sweepIds_matches (s : Settings.Expiry) : (sweepIds s).Matches R (sweepIds s) :=
  Kept.now.bind fun _ => (later_matches _ _).bind fun _ => (later_matches _ _).bind fun _ =>
    query_matches _ _

theorem sweep_matches (s : Settings) : (sweep s).Matches R (sweep s) := by
  refine (sweepIds_matches s.expiry).bind fun ids => ?_
  split
  · exact (note_matches _ _ _ _ _ _).bind fun _ => matches_pure _
  · refine (note_matches _ _ _ _ _ _).bind fun _ => ?_
    refine (matches_foldlM (sweepBatch_matches s.attempts) _ _).bind fun count => ?_
    exact (note_matches _ _ _ _ _ _).bind fun _ => matches_pure count

/- Undisturbed steps -/

section

variable {S : Recent → Recent → Prop}

theorem expiryDisruption_alone (id : Int) (alone : w.Alone) :
    expiryDisruption id w = .ok none w := by
  obtain ⟨_, no_expiries⟩ := alone
  obtain ⟨tables, snapshots, now, epoch, journal, waits, disruptions, codes⟩ := w
  obtain ⟨locked, statements, rowLocks, lostSwaps, unseen, steals, expiries, ticks⟩ := disruptions
  cases no_expiries
  rfl

theorem disruption_alike {absent : γ} {read : Disruptions → List γ}
    {write : Disruptions → List γ → Disruptions}
    (calm : ∀ d : Disruptions, d.Quiet → ∀ x ∈ read d, x = absent)
    (leaves : ∀ d l, l ⊆ read d → d.Leaves (write d l))
    (ticks : ∀ d l, (write d l).ticks = d.ticks) :
    (disruption absent read write).Matches (World.Alike S) (disruption absent read write) := by
  have undisrupted (d : Disruptions) (quiet : d.Quiet) : (popped absent (read d)).1 = absent :=
    (popped_mem absent (read d)).elim id (calm d quiet _)
  intro w v alike
  refine ⟨(undisrupted _ alike.quiet).trans (undisrupted _ alike.quiet').symm, alike.tables,
    alike.snapshots, alike.now, ?_, ?_, ?_⟩
  · dsimp only
    rw [ticks, ticks]
    exact alike.ticks
  · exact (leaves _ _ (popped_subset absent _)).quiet alike.quiet
  · exact (leaves _ _ (popped_subset absent _)).quiet alike.quiet'

theorem turn_alike : turn.Matches (World.Alike S) turn := by
  have free : unlocked.Matches (World.Alike S) unlocked := by
    intro w v alike
    change EndsAlike _
      ((if w.disruptions.tablesLocked then throw (.refused .locked) else pure () : Service Unit) w)
      ((if v.disruptions.tablesLocked then throw (.refused .locked) else pure () : Service Unit) v)
    rw [alike.quiet.unlocked, alike.quiet'.unlocked]
    exact ⟨rfl, alike⟩
  refine free.bind fun _ => (disruption_alike ?_ ?_ ?_).bind refuse_matches
  · exact fun d quiet => quiet.statements
  · exact fun d l sub => { Disruptions.Leaves.refl d with statements := sub }
  · exact fun _ _ => rfl

theorem now_alike : now.Matches (World.Alike S) now := by
  intro w v alike
  cases ticks : w.disruptions.ticks with
  | nil =>
    rw [now_idle ticks, now_idle (alike.ticks.trans ticks)]
    exact ⟨alike.now.symm, alike⟩
  | cons m rest =>
    rw [now_ticks ticks, now_ticks (alike.ticks.trans ticks)]
    have left (d : Disruptions) (shown : d.ticks = m :: rest) : d.Leaves { d with ticks := rest } :=
      .of_ticks (shown ▸ List.subset_cons_self _ _)
    exact ⟨rfl, alike.tables, alike.snapshots, rfl, rfl, (left _ ticks).quiet alike.quiet,
      (left _ (alike.ticks.trans ticks)).quiet alike.quiet'⟩

instance [Evictable S] : Kept (World.Alike S) where
  tables alike := alike.tables
  store _ alike :=
    ⟨rfl, alike.snapshots, alike.now, alike.ticks, alike.quiet, alike.quiet'⟩
  write _ _ alike :=
    ⟨alike.tables, alike.snapshots, alike.now, alike.ticks, alike.quiet, alike.quiet'⟩
  wait _ alike :=
    ⟨alike.tables, alike.snapshots, alike.now, alike.ticks, alike.quiet, alike.quiet'⟩
  evict code alike := ⟨alike.tables, Evictable.evict code alike.snapshots, alike.now, alike.ticks,
    alike.quiet, alike.quiet'⟩
  now := now_alike
  turn := turn_alike
  rowLock := disruption_alike (fun _ quiet => quiet.rowLocks)
    (fun d _ sub => { Disruptions.Leaves.refl d with rowLocks := sub }) fun _ _ => rfl
  steal := disruption_alike (fun _ quiet => quiet.alone.1)
    (fun d _ sub => { Disruptions.Leaves.refl d with steals := sub }) fun _ _ => rfl
  expiry id w v alike := by
    rw [expiryDisruption_alone id alike.quiet.alone, expiryDisruption_alone id alike.quiet'.alone]
    exact ⟨rfl, alike⟩

end

end Service
end Stockroom
