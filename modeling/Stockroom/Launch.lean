import Stockroom.Journal
import Stockroom.Settings.Environment

namespace Stockroom

structure Launch where
  application : String := "grocery.main:app"
  host : String
  socket : Int
  level : Journal.Level
  settings : Settings
  deriving DecidableEq, Repr

namespace Launch

def variableNames : List String :=
  ["DATABASE_URL", "DATABASE_LOCK_TIMEOUT_MS", "DATABASE_ECHO", "RETRY_MAX_ATTEMPTS",
    "RETRY_INITIAL_INTERVAL_MS", "RETRY_MAX_INTERVAL_MS", "RETRY_MULTIPLIER", "CACHE_BACKEND",
    "REDIS_URL", "CACHE_TTL_SECONDS", "CACHE_MAX_SIZE", "ORDER_TTL_MINUTES",
    "EXPIRE_THRESHOLD_MINUTES", "EXPIRE_BOTTOM_THRESHOLD_MINUTES", "EXPIRE_BATCH_UPDATE_SIZE",
    "EXPIRE_MAX_SIZE", "EXPIRE_INTERVAL_SECONDS", "EXPIRE_ENABLED", "LOG_LEVEL", "HOST", "PORT"]

def unknownLevel (word : String) : Fault := .badValue ("Unknown level: " ++ Text.quoted word)

def journalFor (levels : List String) : Except Fault Journal.Setup :=
  (Journal.Setup.initial.choose levels).mapError unknownLevel

def ofEnvironment (env : Settings.Environment) : Except Fault Launch := do
  let settings ← Settings.ofEnvironment env
  let journal ← journalFor [settings.logLevel]
  let socket ← env.int "PORT" 8000
  return { host := (env.value? "HOST").getD "0.0.0.0", socket, level := journal.level, settings }

def announcement (l : Launch) : String :=
  s!"Serving {l.application} at {l.host}:{l.socket}, journal from {l.level.name} up"

end Launch
end Stockroom
