import Stockroom.Number.Binary64Power
import Stockroom.Number.Binary64Text
import Stockroom.Journal
import Stockroom.Settings.Basic

/-! Trying again.
An action is tried until it succeeds, fails for a reason that another attempt cannot mend, or
has been tried often enough; the last fault is then the outcome. The wait after an attempt
grows by a constant factor up to a limit. It is computed after the last attempt too, where
its own failure takes the place of the action's. -/
namespace Stockroom
namespace Attempts

def millis : Nat := 1000

def longestWait (s : Settings.Attempts) : Except Fault Binary64 :=
  let wait := Binary64.ofRatio false s.maxIntervalMs millis
  if wait.isFinite then .ok wait
  else .error (.outOfRange "integer division result too large for a float")

def growth (s : Settings.Attempts) (attempt : Int) : Except Fault Binary64 :=
  match (Binary64.ofInt (attempt - 1)).toInt? with
  | none => .error .beyondFraction
  | some k =>
    let factor := s.multiplier.power k
    if s.multiplier.isFinite && factor = .infinite false then .error .powerTooLarge
    else .ok factor

/-- The wait in seconds after an attempt, counted from one. The limit holds unless the grown
wait is strictly shorter, so it also stands in for a wait that is no number. -/
def waitAfter (s : Settings.Attempts) (attempt : Int) : Except Fault Binary64 := do
  let factor ← growth s attempt
  let first := Binary64.ofInt s.initialIntervalMs
  if !first.isFinite then .error .beyondFraction
  else
    let wait := first.multiply factor
    if wait.belowInt s.maxIntervalMs then .ok (wait.divideNat millis) else longestWait s

def mayRetry (s : Settings.Attempts) (f : Fault) : Bool := s.retryable.any (·.covers f.kind)

def warning (s : Settings.Attempts) (attempt : Nat) (f : Fault) (wait : Binary64) :
    Journal.Entry :=
  ⟨.attempts, .warning, "Attempt " ++ toString attempt ++ "/" ++ toString s.maxAttempts.1 ++
    " failed: " ++ f.message ++ ". Retrying in " ++ wait.fixedText 3 ++ "s"⟩

variable {σ α : Type}

/-- Attempts from number `attempt` on, with `further` more after it. Between two attempts
`pause` notes the fault and the wait. -/
def continueFrom (s : Settings.Attempts) (pause : Nat → Fault → Binary64 → σ → σ)
    (action : EStateM Fault σ α) : (further : Nat) → (attempt : Nat) → EStateM Fault σ α
  | further, attempt => fun st =>
    match action st with
    | .ok a st => .ok a st
    | .error f st =>
      if mayRetry s f then
        match waitAfter s attempt, further with
        | .error g, _ => .error g st
        | .ok _, 0 => .error f st
        | .ok wait, further + 1 =>
          continueFrom s pause action further (attempt + 1) (pause attempt f wait st)
      else .error f st

def run (s : Settings.Attempts) (pause : Nat → Fault → Binary64 → σ → σ)
    (action : EStateM Fault σ α) : EStateM Fault σ α :=
  continueFrom s pause action (s.maxAttempts.1 - 1) 1

/-- What can be seen of a function that is called again and again. -/
inductive Happening where
  | called
  | noted (entry : Journal.Entry)
  | waited (wait : Binary64)
  deriving DecidableEq, Repr

structure Playback (α : Type) where
  /-- The outcomes still to come; the last one repeats. -/
  script : List (Except Fault α)
  happenings : List Happening := []

namespace Playback

def calls (p : Playback α) : Nat := p.happenings.count Happening.called

def journal (p : Playback α) : List Journal.Entry :=
  p.happenings.filterMap fun | .noted entry => some entry | _ => none

def waits (p : Playback α) : List Binary64 :=
  p.happenings.filterMap fun | .waited wait => some wait | _ => none

def next : EStateM Fault (Playback α) α := fun p =>
  let p := { p with happenings := p.happenings ++ [Happening.called] }
  match p.script with
  | [] => .error (.broken "the script is empty") p
  | outcome :: rest =>
    let p := if rest.isEmpty then p else { p with script := rest }
    match outcome with
    | .ok a => .ok a p
    | .error f => .error f p

def pause (s : Settings.Attempts) (attempt : Nat) (f : Fault) (wait : Binary64)
    (p : Playback α) : Playback α :=
  { p with
    happenings := p.happenings ++ [Happening.noted (warning s attempt f wait), .waited wait] }

end Playback

def play (s : Settings.Attempts) (script : List (Except Fault α)) :
    EStateM.Result Fault (Playback α) α :=
  run s (Playback.pause s) Playback.next { script }

end Attempts
end Stockroom
