import Stockroom.Number.Binary64
import Stockroom.Snapshots.Written

/-! Product snapshots in a remote dictionary of texts.
A snapshot is held as text under a key made from the product's code; keys of other owners are
left alone. The dictionary itself forgets entries when their lifetime is over, so an entry is
only marked as having one. -/
namespace Stockroom

structure Remote.Entry where
  key : String
  text : String
  /-- Whether the text was given the lifetime of snapshots. -/
  lapses : Bool
  deriving DecidableEq, Repr

structure Remote where
  ttl : Binary64
  entries : List Remote.Entry := []
  closed : Bool := false
  deriving DecidableEq, Repr

namespace Remote

def keyStart : String := "product:"

def key (code : String) : String := keyStart ++ code

def find? (r : Remote) (k : String) : Option Entry := r.entries.find? (·.key = k)

def without (k : String) (entries : List Entry) : List Entry := entries.filter (·.key ≠ k)

def get (r : Remote) (code : String) : Checked (Option Product) :=
  match r.find? (key code) with
  | none => .accepted none
  | some e => (Product.ofWritten e.text).map some

def put (r : Remote) (p : Product) : Remote :=
  if r.ttl.atMost .zero then r
  else { r with entries := without (key p.code) r.entries ++ [⟨key p.code, p.written, true⟩] }

def place (r : Remote) (k text : String) : Remote :=
  let lapses := (r.find? k).any (·.lapses)
  { r with entries := without k r.entries ++ [⟨k, text, lapses⟩] }

def evict (r : Remote) (code : String) : Remote :=
  { r with entries := without (key code) r.entries }

def clear (r : Remote) : Remote :=
  { r with entries := r.entries.filter fun e => !keyStart.toList.isPrefixOf e.key.toList }

def close (r : Remote) : Remote := { r with closed := true }

end Remote
end Stockroom
