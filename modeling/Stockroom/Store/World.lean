import Stockroom.Attempts
import Stockroom.Contention
import Stockroom.Snapshots.Recent
import Stockroom.Store.Tables

/-! The state of the service, and what may go wrong around it.
Besides the tables and the snapshots the state has the time, the journal and the waits made
so far. Disruptions are what other users of the tables do at a chosen point: hold the lock,
refuse a statement, win a race. With none left the service runs undisturbed. -/
namespace Stockroom

inductive ExpiryDisruption where
  /-- It fails before it begins. -/
  | fails
  /-- The pending order is moved to another state first. -/
  | moved (target : OrderStatus)
  deriving DecidableEq, Repr

/-- What others do. Each list is used up from the front, by one kind of step. -/
structure Disruptions where
  /-- Whether somebody holds the lock on the tables, so that every statement is refused. -/
  tablesLocked : Bool := false
  /-- For each next statement, a refusal or nothing. -/
  statements : List (Option Refusal) := []
  /-- For each next lock on a product's row, a refusal or nothing. -/
  rowLocks : List (Option Refusal) := []
  /-- For each next change of a description, whether somebody else was faster. -/
  lostSwaps : List Bool := []
  /-- For each next look whether a product exists, whether it stays unseen. -/
  unseen : List Bool := []
  /-- For each next change of an order's state, a state that somebody moves it to first. -/
  steals : List (Option OrderStatus) := []
  /-- What befalls the next expiry of an order with a given id. -/
  expiries : List (Int × ExpiryDisruption) := []
  /-- For each next look at the clock, the time that it shows; after them it stands still. -/
  ticks : List Moment := []
  deriving DecidableEq

structure World where
  tables : Tables := {}
  snapshots : Recent
  now : Moment
  /-- The moment from which the lifetimes of snapshots are counted; without one they stand
  still. -/
  snapshotEpoch : Option Moment := none
  journal : List Journal.Entry := []
  /-- The waits between attempts, in seconds. -/
  waits : List Binary64 := []
  disruptions : Disruptions := {}
  codesGiven : Nat := 0

abbrev Service (α : Type) := EStateM Fault World α

namespace Service

variable {α : Type}

/- Statements -/

def popped {γ : Type} (absent : γ) : List γ → γ × List γ
  | [] => (absent, [])
  | x :: rest => (x, rest)

def disruption {γ : Type} (absent : γ) (read : Disruptions → List γ)
    (write : Disruptions → List γ → Disruptions) : Service γ :=
  modifyGet fun w =>
    let (x, rest) := popped absent (read w.disruptions)
    (x, { w with disruptions := write w.disruptions rest })

def refuse : Option Refusal → Service Unit
  | none => pure ()
  | some r => throw (.refused r)

def unlocked : Service Unit := do
  if (← get).disruptions.tablesLocked then throw (.refused .locked)

def turn : Service Unit := do
  unlocked
  refuse (← disruption none (·.statements) fun d l => { d with statements := l })

/- Steps as a whole -/

def closing (x : Service α) : Service α := do
  let a ← x
  turn
  return a

/-- A step that undoes its writes to the tables when it fails, and only those; it fails too
when they cannot be made to last. -/
def atomically (x : Service α) : Service α := fun w =>
  match closing x w with
  | .ok a w' => .ok a w'
  | .error f w' => .error f { w' with tables := w.tables }

def mapFault (g : Fault → Fault) (x : Service α) : Service α := fun w =>
  match x w with
  | .ok a w => .ok a w
  | .error f w => .error (g f) w

def outcome (x : Service α) : Service (Except Fault α) := fun w =>
  match x w with
  | .ok a w => .ok (.ok a) w
  | .error f w => .ok (.error f) w

def ofExcept : Except Fault α → Service α
  | .ok a => pure a
  | .error f => throw f

def outcomes : List (Service α) → Service (List (Except Fault α))
  | [] => pure []
  | x :: rest => return (← outcome x) :: (← outcomes rest)

/-- Steps taken one after another in one transaction, which keeps or undoes all their writes
to the tables. -/
def transaction (keep : Bool) (steps : List (Service α)) : Service (List (Except Fault α)) :=
  fun w =>
    match outcomes steps w with
    | .ok rs w' => .ok rs (if keep then w' else { w' with tables := w.tables })
    | .error f w' => .error f { w' with tables := w.tables }

def note (writer : Journal.Writer) (level : Journal.Level) (message : String) : Service Unit :=
  modify fun w => { w with journal := w.journal ++ [⟨writer, level, message⟩] }

def noting (writer : Journal.Writer) (text : Fault → String) (x : Service α) : Service α := do
  match ← outcome x with
  | .ok a => return a
  | .error f =>
    note writer .error (text f)
    throw f

def now : Service Moment := modifyGet fun w =>
  match w.disruptions.ticks with
  | [] => (w.now, w)
  | m :: rest => (m, { w with now := m, disruptions := { w.disruptions with ticks := rest } })

def later (m : Moment) (span : Span) : Service Moment :=
  match m.shift? span with
  | some m => pure m
  | none => throw .beyondCalendar

def retrying (s : Settings.Attempts) (x : Service α) : Service α :=
  Attempts.run s (fun attempt f wait w =>
    { w with
      waits := w.waits ++ [wait]
      journal := w.journal ++ [Attempts.warning s attempt f wait] }) x

/- Snapshots -/

def snapshotTime (w : World) : Binary64 :=
  match w.snapshotEpoch with
  | none => .zero
  | some start =>
    let micros : Int := w.now.micros - start.micros
    .ofRatio (micros < 0) micros.natAbs Moment.microsPerSecond

def snapshot (code : String) : Service (Option Product) :=
  modifyGet fun w =>
    let (p, r) := w.snapshots.get (snapshotTime w) code
    (p, { w with snapshots := r })

def keepSnapshot (p : Product) : Service Unit :=
  modify fun w => { w with snapshots := w.snapshots.put (snapshotTime w) p }

def dropSnapshot (code : String) : Service Unit :=
  modify fun w => { w with snapshots := w.snapshots.evict code }

def dropSnapshots (codes : List String) : Service Unit := codes.forM dropSnapshot

def clearSnapshots : Service Unit := modify fun w => { w with snapshots := w.snapshots.clear }

end Service
end Stockroom
