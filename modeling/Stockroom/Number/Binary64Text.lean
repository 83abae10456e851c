import Stockroom.Number.Binary64
import Stockroom.Number.DecimalReading

namespace Stockroom

open scoped CorePower

namespace Binary64

open Text

/-- The two whole numbers around `n / d`, the nearer first; of two equally near, the even. -/
def neighbours (n d : Nat) : List Nat :=
  if Tie.even.carries (n / d) (n % d) d then [n / d + 1, n / d] else [n / d, n / d + 1]

def gridHit? (x : Binary64) (n d : Nat) (top : Int) (count : Nat) : Option (Nat × Int) :=
  let exponent := top + 1 - count
  let (n, d) := scaleQuotient 10 (-exponent) n d
  ((neighbours n d).find? fun c => ofPower10 false c exponent == x).map (·, exponent)

/-- The fewest digits that read back as the magnitude `significand · 2 ^ exponent`, which
seventeen always do, and their power of ten. -/
def shortest (significand : Nat) (exponent : Int) : Nat × Int :=
  let (n, d) := ratio significand exponent
  let top := quotientLog10 n d
  let x := Binary64.finite false significand exponent
  ((List.range 17).findSome? fun k => gridHit? x n d top (k + 1)).getD (0, 0)

/-- The digits of the shortest form without trailing zeros, and the place of the point
counted from the first digit. -/
def shortestDigits (significand : Nat) (exponent : Int) : List Char × Int :=
  if significand = 0 then (['0'], 1)
  else
    let (c, e) := shortest significand exponent
    let digits := Nat.toDigits 10 c
    let kept := (digits.reverse.dropWhile (· = '0')).reverse
    (kept, e + digits.length)

structure Layout where
  /-- Where the point may stand, from the first digit, in the positional form. -/
  positional : Int → Bool
  keepsPoint : Bool

def Layout.usual : Layout := ⟨fun place => -4 < place && place ≤ 16, true⟩

def Layout.plain : Layout := ⟨fun _ => true, false⟩

def powerText (n : Int) : List Char :=
  let digits := Nat.toDigits 10 n.natAbs
  (if n < 0 then '-' else '+') :: (if digits.length < 2 then '0' :: digits else digits)

def Layout.text (layout : Layout) (digits : List Char) (place : Int) : List Char :=
  if layout.positional place then
    let body := Decimal.pointAfter digits place
    if layout.keepsPoint && !body.contains '.' then body ++ ['.', '0'] else body
  else
    let body := match digits with
      | [] => []
      | [d] => [d]
      | d :: rest => d :: '.' :: rest
    body ++ 'e' :: powerText (place - 1)

def written (layout : Layout) : Binary64 → String
  | .nan => "nan"
  | .infinite s => if s then "-inf" else "inf"
  | .finite s m e =>
    let (digits, place) := shortestDigits m e
    String.ofList ((if s then ['-'] else []) ++ layout.text digits place)

def toText (x : Binary64) : String := written .usual x

def placedChars (places units : Nat) : List Char :=
  let digits := Nat.toDigits 10 units
  let padded := List.replicate (places + 1 - digits.length) '0' ++ digits
  let whole := padded.take (padded.length - places)
  if places = 0 then whole else whole ++ '.' :: padded.drop (padded.length - places)

def roundedUnits (places significand : Nat) (exponent : Int) : Nat :=
  let (n, d) := ratio significand exponent
  divideRounded .even (n * 10 ^ places) d

def fixedText (places : Nat) : Binary64 → String
  | .nan => "nan"
  | .infinite s => if s then "-inf" else "inf"
  | .finite s m e =>
    String.ofList ((if s then ['-'] else []) ++ placedChars places (roundedUnits places m e))

/-- The decimal that the text with `places` digits behind the point stands for. -/
def toDecimal (places : Nat) : Binary64 → Decimal
  | .nan => .nan false false 0
  | .infinite s => .infinite s
  | .finite s m e => .finite s (roundedUnits places m e) (-places)

def toShortestDecimal (layout : Layout) (x : Binary64) : Decimal :=
  (Decimal.read? (written layout x)).getD (.nan false false 0)

/- Reading -/

def namedValue? (negative : Bool) (cs : List Char) : Option Binary64 :=
  if spells "inf" cs || spells "infinity" cs then some (.infinite negative)
  else if spells "nan" cs then some .nan
  else none

def readPlain? (cs : List Char) : Option Binary64 :=
  let (negative, cs) := splitSign cs
  match namedValue? negative cs with
  | some x => some x
  | none => (unsignedNumeral? negative cs).map ofNumeral

/-- A number as a person types it: blanks around it, digits of any script, single underscores
between digits. -/
def read? (s : String) : Option Binary64 :=
  (joinDigits? ((trim isBlank s.toList).map plainDigit)).bind readPlain?

end Binary64
end Stockroom
