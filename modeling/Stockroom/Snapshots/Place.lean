import Stockroom.Journal
import Stockroom.Settings.Basic
import Stockroom.Snapshots.Recent
import Stockroom.Snapshots.Remote

namespace Stockroom

inductive Settings.Place where
  | here
  | remote (note : Journal.Entry)
  deriving DecidableEq, Repr

/-- The place the settings ask for; every backend but the remote one is this process. -/
def Settings.Snapshots.place (s : Settings.Snapshots) : Settings.Place :=
  if s.backend = "redis" then
    .remote ⟨.snapshots, .info, "Using Redis product cache at " ++ s.remoteUrl⟩
  else .here

/-- The lifetime as the fraction that is added to a time whenever a snapshot is put. Whole
seconds beyond every fraction cannot be added: every put would end with this fault. -/
def Settings.Snapshots.lifetime (s : Settings.Snapshots) : Except Fault Binary64 :=
  let ttl := Binary64.ofInt s.ttlSeconds
  if ttl.isFinite then .ok ttl else .error .beyondFraction

def Settings.Snapshots.recent (s : Settings.Snapshots) : Except Fault Recent :=
  return { ttl := ← s.lifetime, capacity := s.maxSize.1 }

def Settings.Snapshots.remote (s : Settings.Snapshots) : Remote := { ttl := .ofInt s.ttlSeconds }

end Stockroom
