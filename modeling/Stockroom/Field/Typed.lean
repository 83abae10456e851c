import Stockroom.Field.Issue
import Stockroom.Json.Basic

namespace Stockroom

open scoped CorePower

namespace Field

open Text

abbrev Reader (α : Type) := Json → Checked α

/- Whole numbers -/

/-- Zeros at the front of a whole number, with underscores among them, up to its first other
digit. A minus keeps what follows as it is. -/
def dropLeadingZeros : List Char → Option (List Char)
  | [] => none
  | c :: cs =>
    if c = '0' then
      match cs.dropWhile fun d => d = '0' || d = '_' with
      | [] => some [((c :: cs).getLast?).getD c]
      | d :: rest =>
        if d = '.' then
          some (((cs.takeWhile fun d => d = '0' || d = '_').getLast?.getD c) :: d :: rest)
        else if '1' ≤ d && d ≤ '9' then some (d :: rest)
        else none
    else if ('1' ≤ c && c ≤ '9') || c = '-' then some (c :: cs)
    else none

def dropZeroFraction (cs : List Char) : List Char :=
  match cs.dropWhile (· ≠ '.') with
  | _ :: zeros =>
    if zeros ≠ [] && zeros.all (· = '0') then cs.takeWhile (· ≠ '.') else cs
  | [] => cs

def hasLooseUnderscore (cs : List Char) : Bool :=
  cs.head? = some '_' || cs.getLast? = some '_' || doubled cs
where
  doubled : List Char → Bool
    | '_' :: '_' :: _ => true
    | _ :: rest => doubled rest
    | [] => false

def dropUnderscores (cs : List Char) : List Char :=
  if hasLooseUnderscore cs then cs else cs.filter (· ≠ '_')

/-- A whole number in its plain form: an optional minus, and digits that do not start with a
superfluous zero. -/
def plainInt? (cs : List Char) : Checked Int :=
  let (negative, digits) := match cs with
    | '-' :: rest => (true, rest)
    | _ => (false, cs)
  match plainNat? digits with
  | none => .issue .intParsing
  | some n =>
    if digits.head? = some '0' && digits ≠ ['0'] then .issue .intParsing
    else if digitLimit < digits.length then .issue .intParsingSize
    else .accepted (if negative then -n else n)

def intOfText (s : String) : Checked Int :=
  let cs := trim isBlank s.toList
  let unsigned := match cs with
    | '+' :: rest => if rest.head? = some '-' then none else some rest
    | _ => some cs
  match unsigned.bind dropLeadingZeros with
  | none => .issue .intParsing
  | some cs => plainInt? (dropUnderscores (dropZeroFraction cs))

def isInner64 (n : Int) : Bool := -(2 ^ (63 : Nat)) < n && n < 2 ^ (63 : Nat)

def int : Reader Int
  | .integer n => .accepted n
  | .bool b => .accepted (if b then 1 else 0)
  | .text s => intOfText s
  | .broken _ => .issue .stringUnicode
  | .fraction x =>
    if !x.isFinite then .issue .finiteNumber
    else match x.toInt? with
      | none => .issue .intFromFloat
      | some n => if isInner64 n then .accepted n else .issue .intParsingSize
  | _ => .issue .intType

/- Fractions -/

/-- A fraction written as text; underscores may stand alone inside. -/
def fractionOfText (s : String) : Checked Binary64 :=
  let cs := trim isBlank s.toList
  match (Binary64.readPlain? cs).or (Binary64.readPlain? (dropUnderscores cs)) with
  | some x => .accepted x
  | none => .issue .floatParsing

def fraction : Reader Binary64
  | .fraction x => .accepted x
  | .integer n => if (Binary64.ofInt n).isFinite then .accepted (.ofInt n) else .issue .floatType
  | .bool b => .accepted (.ofInt (if b then 1 else 0))
  | .text s => fractionOfText s
  | .broken _ => .issue .stringUnicode
  | _ => .issue .floatType

/- Truth values -/

def boolOfWord? (s : String) : Option Bool :=
  let is (w : String) : Bool := spells w s.toList
  if ["1", "true", "t", "yes", "y", "on"].any is then some true
  else if ["0", "false", "f", "no", "n", "off"].any is then some false
  else none

def boolOfText (s : String) : Checked Bool :=
  match boolOfWord? s with
  | some b => .accepted b
  | none => .issue .boolParsing

def boolOfInt (n : Int) : Checked Bool :=
  if n = 0 then .accepted false
  else if n = 1 then .accepted true
  else if -(2 ^ (63 : Nat)) ≤ n && n < 2 ^ (63 : Nat) then .issue .boolParsing
  else .issue .boolType

def bool : Reader Bool
  | .bool b => .accepted b
  | .integer n => boolOfInt n
  | .text s => boolOfText s
  | .broken _ => .issue .stringUnicode
  | .fraction x =>
    match x.toInt? with
    | some n => if isInner64 n then boolOfInt n else .issue .boolType
    | none => .issue .boolType
  | _ => .issue .boolType

/- Text and decimals -/

def text : Reader String
  | .text s => .accepted s
  | .broken _ => .issue .stringUnicode
  | _ => .issue .stringType

def finite (d : Decimal) : Checked Decimal :=
  if d.isFinite then .accepted d else .issue .finiteNumber

/-- A decimal; a fraction counts as what it is written like in the given layout. -/
def decimal (layout : Binary64.Layout) : Reader Decimal
  | .text s =>
    match Decimal.read? s with
    | some d => finite d
    | none => .issue .decimalParsing
  | .integer n => .accepted (.ofInt n)
  | .fraction x => finite (x.toShortestDecimal layout)
  | .broken _ => .issue .decimalParsing
  | _ => .issue .decimalType

/- Bounds -/

def atLeast (bound : Int) (n : Int) : Checked Nat :=
  if bound ≤ n then .accepted n.toNat else .issue (.greaterThanEqual (.ofInt bound))

abbrev Positive := { n : Nat // 0 < n }

def positive (otherwise : Issue.Kind) (n : Int) : Checked Positive :=
  if h : 0 < n.toNat then .accepted ⟨n.toNat, h⟩ else .issue otherwise

def belowOne : Issue.Kind := .greaterThanEqual (.ofInt 1)

def atLeastOne (x : Binary64) : Checked Binary64 :=
  if (Binary64.ofInt 1).atMost x then .accepted x else .issue (.greaterThanEqual (.ofInt 1))

def aboveZero (x : Binary64) : Checked Binary64 :=
  if Binary64.zero.below x then .accepted x else .issue (.greaterThan (.ofInt 0))

/- Members of an object -/

def required {α : Type} (members : List (String × Json)) (name : String) (read : Reader α) :
    Checked α :=
  (match Json.lookup name members with
    | some x => read x
    | none => .issue .missing).under (.key name)

def optional {α : Type} (members : List (String × Json)) (name : String) (absent : α)
    (read : Reader α) : Checked α :=
  match Json.lookup name members with
  | some x => (read x).under (.key name)
  | none => .accepted absent

end Field
end Stockroom
