import Stockroom.Desk.Reply
import Stockroom.Proofs.Withdrawal

/-! What a command tells while somebody else holds the lock on the tables.
Every statement is refused then, so a command fails at its first one and the tables stay. Where
that statement is about the row of a product, the refusal is told as a conflict over the
product, after all attempts; everywhere else it reaches the caller as it is. -/
namespace Stockroom

/-- Somebody holds the lock on the tables, and does nothing else to a command. -/
structure Disruptions.OnlyLocked (d : Disruptions) : Prop where
  locked : d.tablesLocked = true
  rowLocks : ∀ x ∈ d.rowLocks, x = none
  unseen : ∀ x ∈ d.unseen, x = false
  alone : d.Alone

theorem Disruptions.Leaves.onlyLocked {d e : Disruptions} (left : d.Leaves e)
    (h : d.OnlyLocked) : e.OnlyLocked where
  locked := left.locked.trans h.locked
  rowLocks := fun x hx => h.rowLocks x (left.rowLocks hx)
  unseen := fun x hx => h.unseen x (left.unseen hx)
  alone := left.alone h.alone

theorem asConflict_locked (code : String) :
    Fault.asConflict code (.refused .locked) = .lockedElsewhere code := by
  have contention : Refusal.locked.isContention = true := by decide +kernel
  rw [Fault.asConflict, if_pos contention]

namespace Service

variable {α β γ : Type} {x : Service α} {w : World} {f : Fault}

/- Steps that fail for certain -/

theorem Fails.after {g : α → Service β} {a : α} {v : World} (run : x w = .ok a v)
    (same : v.tables = w.tables) (lead : w.Leads v) (h : (g a).Fails v f) :
    (x >>= g).Fails w f := by
  obtain ⟨u, failed, kept, onward⟩ := h
  exact ⟨u, bind_error.mpr (.inr ⟨a, v, run, failed⟩), kept.trans same, lead.trans onward⟩

theorem Fails.mapFault {g : Fault → Fault} (h : x.Fails w f) : (mapFault g x).Fails w (g f) := by
  obtain ⟨v, run, rest⟩ := h
  refine ⟨v, ?_, rest⟩
  unfold Service.mapFault
  rw [run]

theorem Fails.noting {writer : Journal.Writer} {text : Fault → String} (h : x.Fails w f) :
    (noting writer text x).Fails w f := by
  obtain ⟨v, run, same, lead⟩ := h
  have told : outcome x w = .ok (.error f) v := by
    unfold outcome
    rw [run]
  obtain ⟨u, noted, kept, onward⟩ := note_passes writer .error (text f) v
  exact .after told same lead (.after noted kept onward ⟨u, rfl, rfl, .refl u⟩)

theorem Fails.undisrupted {absent : γ} {read : Disruptions → List γ}
    {write : Disruptions → List γ → Disruptions} {g : γ → Service β}
    (leaves : ∀ d l, l ⊆ read d → d.Leaves (write d l))
    (ticks : ∀ d l, (write d l).ticks = d.ticks) (all_absent : ∀ y ∈ read w.disruptions, y = absent)
    (h : ∀ v : World, v.tables = w.tables → w.Leads v → (g absent).Fails v f) :
    (disruption absent read write >>= g).Fails w f := by
  obtain ⟨found, same, lead⟩ := disruption_ends (w := w) absent read write
    (leaves _) (ticks _)
  have idle : (popped absent (read w.disruptions)).1 = absent := found.elim id (all_absent _)
  refine Fails.after (a := absent) ?_ same lead (h _ same lead)
  change EStateM.Result.ok (popped absent (read w.disruptions)).1 _ = _
  rw [idle]

/- Statements under the lock -/

section Locked

variable (locked : w.disruptions.tablesLocked = true)

include locked

theorem turn_locked : turn.Fails w (.refused .locked) := by
  refine Fails.bind ⟨w, ?_, rfl, .refl w⟩
  change (if w.disruptions.tablesLocked then throw (.refused .locked) else pure () :
    Service Unit) w = _
  rw [locked]
  rfl

theorem query_locked (numbers : List Int) (read : Tables → α) :
    (query numbers read).Fails w (.refused .locked) :=
  (turn_locked locked).bind.bind

theorem nested_locked : (nested x).Fails w (.refused .locked) := (turn_locked locked).bind

end Locked

section OnlyLocked

variable {s : Settings.Attempts} {code : String} (locked : w.disruptions.OnlyLocked)

include locked

theorem attempts_locked (surfaces : s.Surfaces (.lockedElsewhere code)) :
    (retrying s (mapFault (Fault.asConflict code) (nested x))).Fails w (.lockedElsewhere code) := by
  refine retrying_fails surfaces fun v _ lead => ?_
  rw [← asConflict_locked]
  exact (nested_locked (lead.left.onlyLocked locked).locked).mapFault

theorem lockProduct_locked : (lockProduct code).Fails w (.refused .locked) := by
  refine Fails.undisrupted ?_ (fun _ _ => rfl) locked.rowLocks fun v _ lead => ?_
  · exact fun d l sub => { Disruptions.Leaves.refl d with rowLocks := sub }
  · exact .after rfl rfl (.refl v) (query_locked (lead.left.onlyLocked locked).locked _ _).bind

theorem productExists_locked : (productExists code none).Fails w (.refused .locked) := by
  refine Fails.undisrupted ?_ (fun _ _ => rfl) locked.unseen fun v _ lead => ?_
  · exact fun d l sub => { Disruptions.Leaves.refl d with unseen := sub }
  · rw [if_neg Bool.false_ne_true]
    exact query_locked (lead.left.onlyLocked locked).locked _ _

/- Commands under the lock -/

theorem createProduct_locked {name : String} {stock : Int} {price : Decimal} (least : 0 ≤ stock) :
    (createProduct code name stock price).Fails w (.refused .locked) := by
  unfold createProduct
  rw [if_neg (Int.not_lt.mpr least)]
  exact (productExists_locked locked).bind.atomically.bind

theorem updateProduct_locked {name : String} {price : Decimal} {stock : Option Int}
    (surfaces : s.Surfaces (.lockedElsewhere code)) :
    (updateProduct s code name price stock).Fails w (.lockedElsewhere code) :=
  (attempts_locked locked surfaces).bind.bind.atomically.bind

theorem deleteProduct_locked : (deleteProduct code).Fails w (.lockedElsewhere code) := by
  have found : (lockProduct code).Fails w (.refused .locked) := lockProduct_locked locked
  have told := found.mapFault (g := Fault.asConflict code)
  rw [asConflict_locked] at told
  exact told.bind.atomically.bind

theorem createOrder_locked {s : Settings} {quantity : Int} {wanted : List (String × Int)}
    (positive : 0 < quantity) (surfaces : s.attempts.Surfaces (.lockedElsewhere code)) :
    (createOrder s ((code, quantity) :: wanted)).Fails w (.lockedElsewhere code) := by
  have reserved : (reserve s.attempts code quantity).Fails w (.lockedElsewhere code) := by
    unfold reserve
    rw [if_neg (Int.not_le.mpr positive)]
    exact (attempts_locked locked surfaces).bind.bind
  have lines : (((code, quantity) :: wanted).mapM fun item =>
      reserveLine s.attempts item.1 item.2).Fails w (.lockedElsewhere code) := by
    rw [List.mapM_cons]
    exact reserved.noting.bind.bind
  exact lines.bind.atomically.bind

theorem leavePending_locked {exit : Exit} :
    (leavePending s exit code).Fails w (.refused .locked) :=
  (query_locked locked.locked _ _).bind.bind.bind.atomically.bind

theorem expireOrder_locked {id : Int} : (expireOrder s id).Fails w (.refused .locked) := by
  refine .after (disruptExpiry_alone id locked.alone) rfl (.refl w) ?_
  have found : (ordersWithIds [id]).Fails w (.refused .locked) :=
    (query_locked locked.locked [id] _).bind
  exact found.bind.bind.atomically.bind

end OnlyLocked

end Service

/- What callers are told -/

def Command.Fit : Command → Prop
  | .createProduct _ _ stock _ => 0 ≤ stock
  | .updateProduct _ _ _ stock => ∀ quantity, stock = some quantity → 0 ≤ quantity
  | .createOrder wanted => wanted ≠ [] ∧ ∀ item ∈ wanted, 0 < item.2
  | .deleteProduct _ | .payOrder _ | .cancelOrder _ | .expireOrder _ => True
  | _ => False

/-- The product whose row the first statement of a command is about. -/
def Command.contended? : Command → Option String
  | .updateProduct code _ _ _ | .deleteProduct code => some code
  | .createOrder wanted => wanted.head?.map (·.1)
  | _ => none

def World.Rejects (w : World) (e : Event) (f : Fault) : Prop :=
  w.answer e = .error f ∧ (w.after e).tables = w.tables

theorem rejects_of_fails {w : World} {e : Event} {f : Fault}
    (failed : (e.command.perform e.settings).Fails (w.facing e) f) : w.Rejects e f := by
  obtain ⟨v, run, same, _⟩ := failed
  refine ⟨World.answer_of_fails ⟨v, run, same, ‹_›⟩, ?_⟩
  unfold World.after
  rw [run]
  exact same

/-- A held lock shows as a conflict over a product where the command begins with the row of that
product, and as the bare refusal everywhere else: a conflict is told as such, the refusal as a
failure of the service. Either way the tables stay as they were. -/
theorem held_lock_is_told (w : World) {e : Event} (locked : e.disruptions.OnlyLocked)
    (fit : e.command.Fit) :
    (∀ code, e.command.contended? = some code →
      e.settings.attempts.Surfaces (.lockedElsewhere code) ∨ e.command = .deleteProduct code →
      w.Rejects e (.lockedElsewhere code) ∧
      ∀ m, Desk.Reply.ofFault m (.lockedElsewhere code) = .failed m 409 "Concurrent Modification"
        "The resource was modified by another user. Please refresh and try again.") ∧
    (e.command.contended? = none → w.Rejects e (.refused .locked) ∧
      ∀ m, Desk.Reply.ofFault m (.refused .locked) =
        { status := 500, content := .plain "Internal Server Error" }) := by
  obtain ⟨settings, now, disruptions, command⟩ := e
  refine ⟨fun code about surfaces => ⟨rejects_of_fails ?_, fun _ => rfl⟩,
    fun free => ⟨rejects_of_fails ?_, fun _ => rfl⟩⟩
  · cases command with
    | updateProduct code' name price stock =>
      cases about
      exact Service.fails_map (Service.updateProduct_locked locked (surfaces.resolve_right nofun))
    | deleteProduct code' =>
      cases about
      exact Service.fails_map (Service.deleteProduct_locked locked)
    | createOrder wanted =>
      cases wanted with
      | nil => cases about
      | cons first rest =>
        cases about
        have positive : 0 < first.2 := fit.2 first List.mem_cons_self
        exact Service.fails_map
          (Service.createOrder_locked locked positive (surfaces.resolve_right nofun))
    | _ => cases about
  · cases command with
    | createProduct code name stock price =>
      exact Service.fails_map (Service.createProduct_locked locked fit)
    | payOrder code | cancelOrder code =>
      exact Service.fails_map (Service.leavePending_locked locked)
    | expireOrder id => exact Service.fails_map (Service.expireOrder_locked locked)
    | createOrder wanted =>
      cases wanted with
      | nil => exact absurd rfl fit.1
      | cons first rest => cases free
    | updateProduct _ _ _ _ | deleteProduct _ => cases free
    | _ => exact fit.elim

def Event.locked (minutes : Fin 1000) (command : Command) : Event :=
  { Event.quiet minutes command with disruptions := { tablesLocked := true } }

theorem locked_only (minutes : Fin 1000) (command : Command) :
    (Event.locked minutes command).disruptions.OnlyLocked := by
  constructor <;> simp [Event.locked, Disruptions.Alone]

theorem locked_tea_is_in_conflict :
    World.teaOrdered.Rejects (.locked 2 (.updateProduct "tea" "Tea" (.ofCents 160) none))
      (.lockedElsewhere "tea") := by
  have told := held_lock_is_told World.teaOrdered
    (locked_only 2 (.updateProduct "tea" "Tea" (.ofCents 160) none)) nofun
  exact (told.1 "tea" rfl (.inl fun _ => Attempts.default_waits)).1

/-- The payment of the tea meets the lock at its first statement, and no conflict is told. -/
theorem locked_tea_payment_is_no_conflict :
    ¬∀ e : Event, e.disruptions.OnlyLocked → e.command.Fit →
      ∃ text, World.teaOrdered.answer e = .error (.concurrencyConflict text) := by
  intro always
  obtain ⟨text, told⟩ := always _ (locked_only 2 (.payOrder "order-1")) trivial
  have refused : World.teaOrdered.answer (.locked 2 (.payOrder "order-1")) =
      .error (.refused .locked) := by
    decide +kernel
  rw [refused] at told
  cases told

end Stockroom
