import Stockroom.Number.Binary64
import Stockroom.Product

/-! Recently used product snapshots.
A snapshot is kept under its product's code until its lifetime is over, counted from when it
was put; a look at it does not prolong that. Beyond the capacity the one least recently put
or looked at goes first. -/
namespace Stockroom

structure Recent.Entry where
  product : Product
  lapses : Binary64
  deriving DecidableEq, Repr

/-- The snapshots kept, least recently used first. -/
structure Recent where
  ttl : Binary64
  capacity : Nat
  entries : List Recent.Entry := []
  deriving DecidableEq, Repr

namespace Recent

def without (code : String) (entries : List Entry) : List Entry :=
  entries.filter fun e => e.product.code ≠ code

def find? (code : String) (entries : List Entry) : Option Entry :=
  entries.find? fun e => e.product.code = code

def get (r : Recent) (time : Binary64) (code : String) : Option Product × Recent :=
  match find? code r.entries with
  | none => (none, r)
  | some e =>
    let others := without code r.entries
    if e.lapses.atMost time then (none, { r with entries := others })
    else (some e.product, { r with entries := others ++ [e] })

/-- Keeps a snapshot from a time on; a lifetime that is not above zero keeps nothing. -/
def put (r : Recent) (time : Binary64) (product : Product) : Recent :=
  if r.ttl.atMost .zero then r
  else
    let entries := without product.code r.entries ++ [⟨product, time.add r.ttl⟩]
    { r with entries := entries.drop (entries.length - r.capacity) }

def evict (r : Recent) (code : String) : Recent := { r with entries := without code r.entries }

def clear (r : Recent) : Recent := { r with entries := [] }

end Recent
end Stockroom
