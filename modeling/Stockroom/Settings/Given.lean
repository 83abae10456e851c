import Stockroom.Settings.Basic

namespace Stockroom
namespace Settings

open Stockroom.Field

/-- A member with a default, read without its place; `check` of the group adds it. -/
def given {α : Type} (values : List (String × Json)) (name : String) (absent : α)
    (read : Reader α) : Checked α :=
  match Json.lookup name values with
  | some x => read x
  | none => .accepted absent

def spanFault : Span.Fault → Fault
  | .tooLong => .outOfRange "Python int too large to convert to C int"
  | .daysBeyond days =>
    .outOfRange ("days=" ++ toString days ++ "; must have magnitude <= 999999999")

def span (micros : Int) : Except Fault Span := (Span.ofMicros micros).mapError spanFault

def givenSpan (values : List (String × Json)) (name : String) (absent : Span) :
    Except Fault Span :=
  match Json.lookup name values with
  | some (.integer n) => span n
  | some (.bool b) => span (if b then 1 else 0)
  | some _ => .error (.wrongType "unsupported type for a span")
  | none => .ok absent

def Store.ofGiven (values : List (String × Json)) : Except Fault Store :=
  let d : Store := {}
  resolve (Store.check ((given values "url" d.url text).under (.key "url"))
    (given values "lock_timeout_ms" d.lockTimeoutMs.1 int)
    ((given values "echo" d.echo bool).under (.key "echo")))

def Attempts.ofGiven (values : List (String × Json)) (retryable : List Fault.Kind) :
    Except Fault Attempts :=
  let d : Attempts := {}
  resolve (Attempts.check (given values "max_attempts" d.maxAttempts.1 int)
    (given values "initial_interval_ms" d.initialIntervalMs int)
    (given values "max_interval_ms" d.maxIntervalMs int)
    (given values "multiplier" d.multiplier fraction) retryable)

def Snapshots.ofGiven (values : List (String × Json)) : Except Fault Snapshots :=
  let d : Snapshots := {}
  resolve (Snapshots.check ((given values "backend" d.backend text).under (.key "backend"))
    ((given values "redis_url" d.remoteUrl text).under (.key "redis_url"))
    (given values "ttl_seconds" d.ttlSeconds int)
    (given values "max_size" d.maxSize.1 int))

def Expiry.ofGiven (values : List (String × Json)) : Except Fault Expiry := do
  let d : Expiry := {}
  let orderTtl ← givenSpan values "order_ttl" d.orderTtl
  let threshold ← givenSpan values "threshold" d.threshold
  let bottomThreshold ← givenSpan values "bottom_threshold" d.bottomThreshold
  resolve (Expiry.check orderTtl threshold bottomThreshold
    (given values "batch_update_size" d.batchSize.1 int)
    (given values "max_size" d.maxSize.1 int)
    (given values "interval_seconds" d.intervalSeconds fraction)
    ((given values "enabled" d.enabled bool).under (.key "enabled")))

end Settings
end Stockroom
