import Stockroom.Fault
import Stockroom.Field.Typed
import Stockroom.Time.Moment

/-! The settings of the service, in groups.
Each group has defaults, so one that is not given is complete. Bounds on the values are part
of the types: counts that must not be zero are positive, waits are natural numbers. -/
namespace Stockroom
namespace Settings

/- Defaults that must be positive -/

def defaultLockTimeoutMs : Field.Positive := ⟨5000, by decide⟩

def defaultMaxAttempts : Field.Positive := ⟨3, by decide⟩

def defaultSnapshotCount : Field.Positive := ⟨100, by decide⟩

def defaultBatchSize : Field.Positive := ⟨100, by decide⟩

def defaultSweepSize : Field.Positive := ⟨1000, by decide⟩

structure Store where
  url : String := "sqlite+aiosqlite:///./grocery.db"
  lockTimeoutMs : Field.Positive := defaultLockTimeoutMs
  echo : Bool := false
  deriving DecidableEq, Repr

structure Attempts where
  maxAttempts : Field.Positive := defaultMaxAttempts
  initialIntervalMs : Nat := 1000
  maxIntervalMs : Nat := 5000
  /-- At least one; the factor by which the wait grows. -/
  multiplier : Binary64 := .ofRatio false 3 2
  retryable : List Fault.Kind := [.concurrencyConflict]
  deriving DecidableEq, Repr

structure Snapshots where
  backend : String := "local"
  remoteUrl : String := "redis://localhost:6379"
  ttlSeconds : Nat := 600
  maxSize : Field.Positive := defaultSnapshotCount
  deriving DecidableEq, Repr

/-- How long an order may stay pending, and which overdue orders a sweep looks at: those last
touched between `threshold` and `bottomThreshold` ago, `maxSize` of them at most. -/
structure Expiry where
  orderTtl : Span := 1800000000
  threshold : Span := 86400000000
  bottomThreshold : Span := 2100000000
  batchSize : Field.Positive := defaultBatchSize
  maxSize : Field.Positive := defaultSweepSize
  intervalSeconds : Binary64 := .ofInt 60
  enabled : Bool := true
  deriving DecidableEq, Repr

end Settings

structure Settings where
  store : Settings.Store := {}
  attempts : Settings.Attempts := {}
  snapshots : Settings.Snapshots := {}
  expiry : Settings.Expiry := {}
  logLevel : String := "INFO"
  deriving DecidableEq, Repr

namespace Settings

open Stockroom.Field

/- Groups from values whose types are right; the bounds are checked side by side -/

def Store.check (url : Checked String) (lockTimeoutMs : Checked Int) (echo : Checked Bool) :
    Checked Store :=
  Store.mk <$> url
    <*> (lockTimeoutMs.andThen (positive (.greaterThan (.ofInt 0)))).under (.key "lock_timeout_ms")
    <*> echo

def Attempts.check (maxAttempts initialIntervalMs maxIntervalMs : Checked Int)
    (multiplier : Checked Binary64) (retryable : List Fault.Kind) : Checked Attempts :=
  Attempts.mk <$> (maxAttempts.andThen (positive belowOne)).under (.key "max_attempts")
    <*> (initialIntervalMs.andThen (atLeast 0)).under (.key "initial_interval_ms")
    <*> (maxIntervalMs.andThen (atLeast 0)).under (.key "max_interval_ms")
    <*> (multiplier.andThen atLeastOne).under (.key "multiplier")
    <*> .accepted retryable

def Snapshots.check (backend remoteUrl : Checked String) (ttlSeconds maxSize : Checked Int) :
    Checked Snapshots :=
  Snapshots.mk <$> backend <*> remoteUrl
    <*> (ttlSeconds.andThen (atLeast 0)).under (.key "ttl_seconds")
    <*> (maxSize.andThen (positive belowOne)).under (.key "max_size")

def Expiry.check (orderTtl threshold bottomThreshold : Span) (batchSize maxSize : Checked Int)
    (intervalSeconds : Checked Binary64) (enabled : Checked Bool) : Checked Expiry :=
  Expiry.mk orderTtl threshold bottomThreshold
    <$> (batchSize.andThen (positive belowOne)).under (.key "batch_update_size")
    <*> (maxSize.andThen (positive belowOne)).under (.key "max_size")
    <*> (intervalSeconds.andThen aboveZero).under (.key "interval_seconds")
    <*> enabled

def resolve {α : Type} : Checked α → Except Fault α
  | .accepted a => .ok a
  | .refused issues => .error (.invalid issues)

end Settings
end Stockroom
