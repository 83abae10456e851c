import Stockroom.Settings.Given
import Stockroom.Text.Casing

namespace Stockroom
namespace Settings

abbrev Environment := List (String × String)

namespace Environment

def value? (env : Environment) (name : String) : Option String := env.lookup name

def shownLimit : Nat := 200

def wholeFault (s : String) : Text.WholeFault → Fault
  | .malformed => .badValue ("invalid literal for int() with base 10: " ++
      String.ofList ((Text.quoted s).toList.take shownLimit))
  | .tooLong digits => .badValue ("Exceeds the limit (4300 digits) for integer string " ++
      "conversion: value has " ++ toString digits ++
      " digits; use sys.set_int_max_str_digits() to increase the limit")

def int (env : Environment) (name : String) (absent : Int) : Except Fault Int :=
  match env.value? name with
  | none => .ok absent
  | some s => (Text.wholeNumber? s).mapError (wholeFault s)

def fraction (env : Environment) (name : String) (absent : Binary64) : Except Fault Binary64 :=
  match env.value? name with
  | none => .ok absent
  | some s =>
    match Binary64.read? s with
    | some x => .ok x
    | none => .error (.badValue ("could not convert string to float: " ++ Text.quoted s))

def switch (env : Environment) (name : String) (absent : Bool) : Bool :=
  match env.value? name with
  | none => absent
  | some s =>
    let word := Text.lower (String.ofList (Text.trim Text.isSpacing s.toList))
    ["1", "true", "yes", "on"].contains word

def microsPerMinute : Nat := 60000000

/-- The microseconds of a number of minutes. The part of a minute is first turned into a
fraction of microseconds; the sum is then rounded, a half going to the even neighbour. -/
def minutesToMicros : Binary64 → Except Fault Int
  | .nan => .error (.badValue "cannot convert float NaN to integer")
  | .infinite _ => .error (.outOfRange "cannot convert float infinity to integer")
  | .finite s m e =>
    let (n, d) := Binary64.ratio m e
    let part := (Binary64.ofInt microsPerMinute).multiply (.ofRatio false (n % d) d)
    let (pn, pd) := match part with
      | .finite _ k f => Binary64.ratio k f
      | _ => (0, 1)
    let micros : Int := divideRounded .even (n / d * microsPerMinute * pd + pn) pd
    .ok (if s then -micros else micros)

def minutes (env : Environment) (name : String) (absent : Nat) : Except Fault Span := do
  span (← minutesToMicros (← env.fraction name (.ofInt absent)))

end Environment

def Store.ofEnvironment (env : Environment) : Except Fault Store := do
  let d : Store := {}
  let lockTimeoutMs ← env.int "DATABASE_LOCK_TIMEOUT_MS" d.lockTimeoutMs.1
  resolve (Store.check (.accepted ((env.value? "DATABASE_URL").getD d.url))
    (.accepted lockTimeoutMs) (.accepted (env.switch "DATABASE_ECHO" d.echo)))

def Attempts.ofEnvironment (env : Environment) : Except Fault Attempts := do
  let d : Attempts := {}
  let maxAttempts ← env.int "RETRY_MAX_ATTEMPTS" d.maxAttempts.1
  let initialIntervalMs ← env.int "RETRY_INITIAL_INTERVAL_MS" d.initialIntervalMs
  let maxIntervalMs ← env.int "RETRY_MAX_INTERVAL_MS" d.maxIntervalMs
  let multiplier ← env.fraction "RETRY_MULTIPLIER" d.multiplier
  resolve (Attempts.check (.accepted maxAttempts) (.accepted initialIntervalMs)
    (.accepted maxIntervalMs) (.accepted multiplier) d.retryable)

def Snapshots.ofEnvironment (env : Environment) : Except Fault Snapshots := do
  let d : Snapshots := {}
  let backend := Text.lower ((env.value? "CACHE_BACKEND").getD d.backend)
  let remoteUrl := (env.value? "REDIS_URL").getD d.remoteUrl
  let ttlSeconds ← env.int "CACHE_TTL_SECONDS" d.ttlSeconds
  let maxSize ← env.int "CACHE_MAX_SIZE" d.maxSize.1
  resolve (Snapshots.check (.accepted backend) (.accepted remoteUrl) (.accepted ttlSeconds)
    (.accepted maxSize))

def Expiry.ofEnvironment (env : Environment) : Except Fault Expiry := do
  let d : Expiry := {}
  let orderTtl ← env.minutes "ORDER_TTL_MINUTES" 30
  let threshold ← env.minutes "EXPIRE_THRESHOLD_MINUTES" 1440
  let bottomThreshold ← env.minutes "EXPIRE_BOTTOM_THRESHOLD_MINUTES" 35
  let batchSize ← env.int "EXPIRE_BATCH_UPDATE_SIZE" d.batchSize.1
  let maxSize ← env.int "EXPIRE_MAX_SIZE" d.maxSize.1
  let intervalSeconds ← env.fraction "EXPIRE_INTERVAL_SECONDS" d.intervalSeconds
  resolve (Expiry.check orderTtl threshold bottomThreshold (.accepted batchSize)
    (.accepted maxSize) (.accepted intervalSeconds)
    (.accepted (env.switch "EXPIRE_ENABLED" d.enabled)))

def ofEnvironment (env : Environment) : Except Fault Settings := do
  let store ← Store.ofEnvironment env
  let attempts ← Attempts.ofEnvironment env
  let snapshots ← Snapshots.ofEnvironment env
  let expiry ← Expiry.ofEnvironment env
  return ⟨store, attempts, snapshots, expiry,
    Text.upper ((env.value? "LOG_LEVEL").getD "INFO")⟩

end Settings
end Stockroom
