import Stockroom.Number.Rounding

/-! Decimal numbers with an exponent of their own.
A decimal is a sign, a coefficient and a power of ten, so `1.5` and `1.50` are the same
number in two forms. The written form keeps the coefficient's digits and the exponent:
reading what was written gives the same decimal back. -/
namespace Stockroom

open scoped CorePower

inductive Decimal where
  | finite (negative : Bool) (coefficient : Nat) (exponent : Int)
  | infinite (negative : Bool)
  /-- No number; a signaling one refuses arithmetic, a quiet one passes through it. -/
  | nan (negative signaling : Bool) (payload : Nat)
  deriving DecidableEq, Repr, Inhabited

namespace Decimal

def ofInt (n : Int) : Decimal := .finite (n < 0) n.natAbs 0

/-- `n` hundredths, written with two places. -/
def ofCents (n : Int) : Decimal := .finite (n < 0) n.natAbs (-2)

def isFinite : Decimal → Bool
  | .finite .. => true
  | _ => false

def isNegative : Decimal → Bool
  | .finite s .. => s
  | .infinite s => s
  | .nan s .. => s

def withSign (negative : Bool) : Decimal → Decimal
  | .finite _ c e => .finite negative c e
  | .infinite _ => .infinite negative
  | .nan _ g p => .nan negative g p

def adjusted (coefficient : Nat) (exponent : Int) : Int :=
  exponent + digitCount coefficient - 1

/-- The signed coefficient of a finite decimal, as a multiple of `10 ^ unit`; exact when
`unit` is at most the exponent. -/
def inUnits (unit : Int) : Decimal → Int
  | .finite s c e =>
    let magnitude : Int := c * 10 ^ (e - unit).toNat
    if s then -magnitude else magnitude
  | _ => 0

/- Written form -/

def pointAfter (digits : List Char) (left : Int) : List Char :=
  if left ≤ 0 then '0' :: '.' :: (List.replicate (-left).toNat '0' ++ digits)
  else if (digits.length : Int) ≤ left then
    digits ++ List.replicate (left - digits.length).toNat '0'
  else digits.take left.toNat ++ '.' :: digits.drop left.toNat

def signedDigits (n : Int) : List Char :=
  (if n < 0 then '-' else '+') :: Nat.toDigits 10 n.natAbs

/-- A finite magnitude: positional when the exponent is at most zero and the leading digit
stands no further than five zeros behind the point, with an exponent otherwise. -/
def magnitudeText (coefficient : Nat) (exponent : Int) : List Char :=
  let digits := Nat.toDigits 10 coefficient
  let left : Int := exponent + digits.length
  if exponent ≤ 0 ∧ -6 < left then pointAfter digits left
  else pointAfter digits 1 ++ 'E' :: signedDigits (left - 1)

def chars : Decimal → List Char
  | .finite s c e => (if s then ['-'] else []) ++ magnitudeText c e
  | .infinite s => (if s then ['-'] else []) ++ "Infinity".toList
  | .nan s g p => (if s then ['-'] else []) ++ (if g then ['s'] else []) ++ "NaN".toList ++
      (if p = 0 then [] else Nat.toDigits 10 p)

def toText (d : Decimal) : String := String.ofList d.chars

end Decimal
end Stockroom
