import Stockroom.Text.Blank
import Stockroom.Text.Digit

namespace Stockroom.Text

/-- A number written in base ten: `± coefficient · 10 ^ exponent`. -/
structure Numeral where
  negative : Bool
  coefficient : Nat
  exponent : Int
  deriving DecidableEq, Repr

def splitSign : List Char → Bool × List Char
  | '-' :: cs => (true, cs)
  | '+' :: cs => (false, cs)
  | cs => (false, cs)

def plainNat? (cs : List Char) : Option Nat :=
  if cs ≠ [] && cs.all Char.isDigit then some (digitsValue cs) else none

/-- A power of ten behind its letter; nothing written is the power zero. -/
def exponentPart? : List Char → Option Int
  | [] => some 0
  | c :: cs =>
    if c = 'e' || c = 'E' then
      let (negative, digits) := splitSign cs
      (plainNat? digits).map fun n => if negative then -(n : Int) else n
    else none

def fractionPart : List Char → List Char × List Char
  | '.' :: cs => (cs.takeWhile Char.isDigit, cs.dropWhile Char.isDigit)
  | cs => ([], cs)

def unsignedNumeral? (negative : Bool) (cs : List Char) : Option Numeral :=
  let whole := cs.takeWhile Char.isDigit
  let (fraction, rest) := fractionPart (cs.dropWhile Char.isDigit)
  if whole ++ fraction = [] then none
  else (exponentPart? rest).map fun e =>
    ⟨negative, digitsValue (whole ++ fraction), e - fraction.length⟩

def spells (word : String) (cs : List Char) : Bool := cs.map Char.toLower == word.toList

def joinDigits? (cs : List Char) : Option (List Char) :=
  go none cs
where
  go : Option Char → List Char → Option (List Char)
    | last, [] => if last = some '_' then none else some []
    | last, c :: rest =>
      if c = '_' then
        if last.any Char.isDigit then go (some c) rest else none
      else if last = some '_' && !c.isDigit then none
      else (go (some c) rest).map (c :: ·)

inductive WholeFault where
  | malformed
  | tooLong (digits : Nat)
  deriving DecidableEq, Repr

def digitLimit : Nat := 4300

/-- A whole number as a person types it: blanks around it, digits of any script, single
underscores between digits. The length is judged before what follows the digits. -/
def wholeNumber? (s : String) : Except WholeFault Int :=
  let cs := (s.toList.map plainDigit).dropWhile isBlank
  let (negative, cs) := splitSign cs
  let run := cs.takeWhile fun c => c.isDigit || c = '_'
  let rest := cs.dropWhile fun c => c.isDigit || c = '_'
  match joinDigits? run with
  | none => .error .malformed
  | some [] => .error .malformed
  | some digits =>
    if digitLimit < digits.length then .error (.tooLong digits.length)
    else if rest.all isBlank then
      .ok (if negative then -(digitsValue digits : Int) else digitsValue digits)
    else .error .malformed

end Stockroom.Text
