import Stockroom.Fault
import Stockroom.Text.Casing

/-! Telling contention from other refusals.
A refusal is contention when its state is one of three known ones, or when it says that the
database is locked. The first of the two states that is not empty counts. -/
namespace Stockroom
namespace Refusal

/-- A lock not granted, a failed serialization and a deadlock. -/
def contentionStates : List String := ["55P03", "40001", "40P01"]

def state? (r : Refusal) : Option String :=
  [r.sqlstate, r.pgcode].findSome? fun s => s.filter (· ≠ "")

def lockedWords : String := "database is locked"

def occurs (words : List Char) : List Char → Bool
  | [] => words.isEmpty
  | c :: cs => words.isPrefixOf (c :: cs) || occurs words cs

/-- True of a refusal that another attempt may get past. -/
def isContention (r : Refusal) : Bool :=
  r.state?.any contentionStates.contains ||
    occurs lockedWords.toList (Text.lower r.message).toList

def locked : Refusal := { message := lockedWords }

end Refusal

/-- A fault as the user of a product sees it: contention is a conflict over the product. -/
def Fault.asConflict (code : String) : Fault → Fault
  | .refused r => if r.isContention then .lockedElsewhere code else .refused r
  | f => f

end Stockroom
