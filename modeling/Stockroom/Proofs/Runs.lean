import Mathlib.Algebra.Ring.Nat
import Stockroom.Proofs.Commands
import Stockroom.Proofs.Soundness

/-! Runs of commands from empty tables.
An event is a command with the time it is given at, the settings it runs under and all that
others do to it meanwhile. Others may refuse any statement, hold locks and be faster; they do
not write. -/
namespace Stockroom

/-- A command and its circumstances. -/
structure Event where
  settings : Settings
  now : Moment
  disruptions : Disruptions := {}
  command : Command

/-- The times that the clock may show while the command runs. -/
def Event.times (e : Event) : List Moment := e.now :: e.disruptions.ticks

namespace World

def facing (w : World) (e : Event) : World := { w with now := e.now, disruptions := e.disruptions }

def answer (w : World) (e : Event) : Except Fault Answer :=
  match e.command.perform e.settings (w.facing e) with
  | .ok a _ => .ok a
  | .error f _ => .error f

def after (w : World) (e : Event) : World :=
  match e.command.perform e.settings (w.facing e) with
  | .ok _ v => v
  | .error _ v => v

def run (w : World) (es : List Event) : World := es.foldl after w

def opening : World where
  snapshots := { ttl := .ofInt 600, capacity := 100 }
  now := ⟨0, by decide⟩

end World

-- Named, so that all numerals of minutes rest on the same proof.
instance neZeroThousand : NeZero 1000 := ⟨by decide⟩

def Moment.minutes (n : Fin 1000) : Moment where
  micros := 60 * microsPerSecond * n
  inRange := by
    have small := n.isLt
    simp only [microsPerSecond, limit]
    omega

/-- A command that nobody disturbs, under the default settings. -/
def Event.quiet (minutes : Fin 1000) (command : Command) : Event where
  settings := {}
  now := .minutes minutes
  command := command

/-- A sweep at the end of the first hour, over the orders of that hour. -/
def Event.hourlySweep : Event where
  settings := { expiry := { threshold := 3600000000 } }
  now := .minutes 60
  command := .sweep

/-- Five units of tea come on offer and two of them are ordered. -/
def teaEvents : List Event :=
  [.quiet 0 (.createProduct "tea" "Tea" 5 (.ofCents 150)), .quiet 1 (.createOrder [("tea", 2)])]

def World.teaOrdered : World := World.opening.run teaEvents

theorem run_append (w : World) (es : List Event) (e : Event) :
    w.run (es ++ [e]) = (w.run es).after e := by
  simp [World.run]

theorem run_of_error {w : World} {e : Event} {f : Fault} (failed : w.answer e = .error f) :
    e.command.perform e.settings (w.facing e) = .error f (w.after e) := by
  unfold World.answer at failed
  unfold World.after
  cases run : e.command.perform e.settings (w.facing e) with
  | ok a v =>
    rw [run] at failed
    cases failed
  | error g v =>
    rw [run] at failed
    cases failed
    rfl

theorem event_of_run {w v : World} {e : Event} {a : Answer}
    (run : e.command.perform e.settings (w.facing e) = .ok a v) :
    w.answer e = .ok a ∧ w.after e = v := by
  unfold World.answer World.after
  rw [run]
  exact ⟨rfl, rfl⟩

theorem event_ends {w : World} {e : Event} {good : Answer → World → Prop}
    {bad : Fault → World → Prop}
    (ends : (e.command.perform e.settings).Ends (w.facing e) good bad) :
    (∃ a, w.answer e = .ok a ∧ good a (w.after e)) ∨
      ∃ f, w.answer e = .error f ∧ bad f (w.after e) := by
  unfold Service.Ends at ends
  unfold World.answer World.after
  split at ends
  · rename_i run
    rw [run]
    exact .inl ⟨_, rfl, ends⟩
  · rename_i run
    rw [run]
    exact .inr ⟨_, rfl, ends⟩

inductive Reachable (admits : Command → Prop) : World → Prop where
  | start {w : World} : w.tables = {} → Reachable admits w
  | next {w : World} {e : Event} : Reachable admits w → e.disruptions.Alone →
      admits e.command → Reachable admits (w.after e)

/-- Every event makes no other changes than those of its command. -/
theorem event_makes (w : World) (e : Event) (alone : e.disruptions.Alone) :
    ∃ cs, e.command.Makes (w.answer e).toBool cs ∧
      Commits e.settings.expiry.orderTtl e.times cs w.tables (w.after e).tables := by
  rcases event_ends (e.command.perform_makes e.settings (w := w.facing e) alone) with
    ⟨a, told, -, made⟩ | ⟨f, told, -, made⟩
  · rw [told]
    exact made
  · rw [told]
    exact made

theorem run_keeps {P : Tables → Prop} {w : World} {es : List Event}
    (alone : ∀ e ∈ es, e.disruptions.Alone)
    (each : ∀ ttl times c t t', Commit ttl times c t t' → P t → P t') (start : P w.tables) :
    P (w.run es).tables := by
  induction es generalizing w with
  | nil => exact start
  | cons e es ih =>
    obtain ⟨first, rest⟩ := List.forall_mem_cons.mp alone
    obtain ⟨cs, _, commits⟩ := event_makes w e first
    exact ih rest (commits.keep (fun c _ t t' => each _ _ c t t') start)

/-- What holds of empty tables and is kept by the changes of admitted commands holds in every
state that is reached. -/
theorem Reachable.invariant {admits : Command → Prop} {P : Tables → Prop} {w : World}
    (reached : Reachable admits w) (start : P {})
    (each : ∀ c, admits c → ∀ done cs, c.Makes done cs → ∀ ttl times t t',
      Commits ttl times cs t t' → P t → P t') : P w.tables := by
  induction reached with
  | start empty =>
    rw [empty]
    exact start
  | @next w e _ alone admitted ih =>
    obtain ⟨cs, makes, commits⟩ := event_makes w e alone
    exact each e.command admitted _ cs makes _ _ _ _ commits ih

theorem Reachable.run {admits : Command → Prop} {w : World} (reached : Reachable admits w)
    {es : List Event} (fits : ∀ e ∈ es, e.disruptions.Alone ∧ admits e.command) :
    Reachable admits (w.run es) := by
  induction es generalizing w with
  | nil => exact reached
  | cons e es ih =>
    obtain ⟨alone, admitted⟩ := fits e List.mem_cons_self
    exact ih (.next reached alone admitted) fun e' later => fits e' (List.mem_cons_of_mem _ later)

theorem quiet_nothing : ({} : Disruptions).Quiet := by
  constructor <;> simp [Disruptions.Alone]

theorem teaEvents_fit (admits : Command → Prop)
    (offered : admits (.createProduct "tea" "Tea" 5 (.ofCents 150)))
    (ordered : admits (.createOrder [("tea", 2)])) :
    ∀ e ∈ teaEvents, e.disruptions.Alone ∧ admits e.command := by
  intro e given
  rcases List.mem_pair.mp given with rfl | rfl
  · exact ⟨quiet_nothing.alone, offered⟩
  · exact ⟨quiet_nothing.alone, ordered⟩

theorem teaOrdered_reached : Reachable (fun _ => True) World.teaOrdered := by
  have fits := teaEvents_fit (fun _ => True) trivial trivial
  exact (Reachable.start rfl).run fits

theorem Reachable.sound {admits : Command → Prop} {w : World} (reached : Reachable admits w) :
    Sound w.tables :=
  reached.invariant sound_empty fun _ _ _ _ _ _ _ _ _ commits sound => sound.commits commits

end Stockroom
