import Stockroom.Batches
import Stockroom.Service.Orders

/-! Sweeps over pending orders nobody came back to.
A sweep picks the pending orders last touched within a window of the past, a limited number
of them by ascending id, reads them in batches and expires each that is due. An expiry that
fails is counted and does not end the sweep. Sweeps are repeated until the service shuts
down; a sweep that fails does not end that either. -/
namespace Stockroom

structure SweepCount where
  found : Nat := 0
  expired : Nat := 0
  failed : Nat := 0
  deriving DecidableEq, Repr

namespace Service

def sweepOrder (s : Settings.Attempts) (count : SweepCount) (order : Order) :
    Service SweepCount := do
  if !order.isDue (← now) then return count
  match ← outcome (expireOrder s order.id) with
  | .ok true => return { count with expired := count.expired + 1 }
  | .ok false => return count
  | .error f =>
    note .expiry .error
      s!"Failed to expire order {order.code}: {f.message}. Continuing with next order."
    return { count with failed := count.failed + 1 }

def sweepBatch (s : Settings.Attempts) (count : SweepCount) (ids : List Int) :
    Service SweepCount := do
  (← ordersWithIds ids).foldlM (sweepOrder s) count

def sweepIds (s : Settings.Expiry) : Service (List Int) := do
  let now ← now
  let lower ← later now (-s.threshold)
  let upper ← later now (-s.bottomThreshold)
  idsTouchedWithin lower upper [.pending] s.maxSize.1

/-- The duration that a sweep notes. Its stopwatch is not the clock of the service, and stands
still. -/
def sweepMillis : Nat := 0

def sweep (s : Settings) : Service SweepCount := do
  let ids ← sweepIds s.expiry
  if ids.isEmpty then
    note .expiry .debug "No pending orders to expire"
    return {}
  note .expiry .info s!"Found {ids.length} pending orders to check for expiration"
  let count ← (batches s.expiry.batchSize.1 ids).foldlM (sweepBatch s.attempts)
    { found := ids.length }
  note .expiry .info
    s!"Total expired orders: {count.expired}. Failed: {count.failed}. Total time: {sweepMillis} ms."
  return count

/-- One turn of the repetition: a sweep or a failure, and whether the service is asked to shut
down meanwhile. -/
structure Turn where
  fails : Bool := false
  stops : Bool := false
  deriving DecidableEq, Repr

/-- The sweep of one turn; a failure is noted and leaves no count. -/
def sweepTurn (s : Settings) (turn : Turn) : Service (Option SweepCount) := do
  match ← outcome (if turn.fails then throw (.broken "boom") else sweep s) with
  | .ok count => return some count
  | .error _ =>
    note .expiry .error "Expiration sweep failed"
    return none

/-- Turns until the service is asked to shut down, which may be before the first; those that
were made. -/
def sweepTurns (s : Settings) :
    (asked : Bool) → List Turn → Service (List (Turn × Option SweepCount))
  | true, _ => pure []
  | false, [] => pure []
  | false, turn :: rest => do
    let count ← sweepTurn s turn
    return (turn, count) :: (← sweepTurns s turn.stops rest)

def sweepUntil (s : Settings) (asked : Bool) (turns : List Turn) :
    Service (List (Turn × Option SweepCount)) := do
  note .expiry .info
    ("Expiration sweeper started, interval " ++ s.expiry.intervalSeconds.toText ++ "s")
  let made ← sweepTurns s asked turns
  note .expiry .info "Expiration sweeper stopped"
  return made

def sweepRepeatedly (s : Settings) (turns : List Turn) :
    Service (List (Turn × Option SweepCount)) :=
  sweepUntil s turns.isEmpty turns

end Service
end Stockroom
