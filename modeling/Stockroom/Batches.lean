import Stockroom.Fault

namespace Stockroom

variable {α : Type}

def batchesWithin (size : Nat) : Nat → List α → List (List α)
  | 0, _ => []
  | fuel + 1, xs =>
    if xs.isEmpty then [] else xs.take size :: batchesWithin size fuel (xs.drop size)

/-- The batches of a list. A list has no more batches than items when the size is positive. -/
def batches (size : Nat) (xs : List α) : List (List α) := batchesWithin size xs.length xs

def givenBatches (size : Int) (xs : List α) : Except Fault (List (List α)) :=
  if size < 1 then .error .batchTooSmall else .ok (batches size.toNat xs)

end Stockroom
