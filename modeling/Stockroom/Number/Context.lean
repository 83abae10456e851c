import Stockroom.Number.Decimal

/-! Decimal arithmetic of limited precision.
A result keeps 28 significant digits, a half going to the even neighbour, and its leading
digit lies between the powers -999999 and 999999. An operation without a meaningful
result, and one whose result is too large, fail; a result that is too small loses digits. -/
namespace Stockroom

open scoped CorePower

inductive ArithmeticFault where
  | invalidOperation
  | overflow
  deriving DecidableEq, Repr

namespace Decimal

def precision : Nat := 28

def exponentLimit : Int := 999999

/-- The least exponent of a result: that of the last digit of the smallest normal number. -/
def exponentFloor : Int := -exponentLimit - (precision - 1)

/-- A coefficient cut to `keep` digits, and the exponent that goes with it. A carry out of
the top digit costs one more digit. -/
def cutTo (keep : Nat) (coefficient : Nat) (exponent : Int) : Nat × Int :=
  let extra := digitCount coefficient - keep
  let cut := dropDigits .even coefficient extra
  if keep < digitCount cut then (cut / 10, exponent + extra + 1) else (cut, exponent + extra)

def fit (negative : Bool) (coefficient : Nat) (exponent : Int) : Except ArithmeticFault Decimal :=
  if coefficient = 0 then
    .ok (.finite negative 0 (max exponentFloor (min exponent exponentLimit)))
  else if adjusted coefficient exponent < -exponentLimit then
    if exponent < exponentFloor then
      .ok (.finite negative (dropDigits .even coefficient (exponentFloor - exponent).toNat)
        exponentFloor)
    else .ok (.finite negative coefficient exponent)
  else
    let (c, e) := cutTo precision coefficient exponent
    if exponentLimit < adjusted c e then .error .overflow else .ok (.finite negative c e)

def multiply : Decimal → Decimal → Except ArithmeticFault Decimal
  | .nan s g p, y => if g || isSignaling y then .error .invalidOperation else .ok (.nan s false p)
  | _, .nan s g p => if g then .error .invalidOperation else .ok (.nan s false p)
  | .infinite s, .infinite t => .ok (.infinite (s != t))
  | .infinite s, .finite t c _ =>
    if c = 0 then .error .invalidOperation else .ok (.infinite (s != t))
  | .finite s c _, .infinite t =>
    if c = 0 then .error .invalidOperation else .ok (.infinite (s != t))
  | .finite s c e, .finite t k f => fit (s != t) (c * k) (e + f)
where
  isSignaling : Decimal → Bool
    | .nan _ g _ => g
    | _ => false

/-- A summand far below the last digit that can matter, replaced by one unit just below it:
the sum rounds the same way and its exact form stays short. -/
def nearSummand (bigCoefficient : Nat) (bigExponent : Int) (coefficient : Nat) (exponent : Int) :
    Nat × Int :=
  let digits := digitCount bigCoefficient
  let horizon := bigExponent - 1 +
    (if precision < digits then 0 else (digits : Int) - precision - 1)
  if adjusted coefficient exponent < horizon then (min coefficient 1, horizon)
  else (coefficient, exponent)

def addAligned (s : Bool) (c : Nat) (e : Int) (t : Bool) (k : Nat) (f : Int) :
    Except ArithmeticFault Decimal :=
  let (k, f) := if c = 0 then (k, f) else nearSummand c e k f
  let big : Int := (if s then -1 else 1) * ((if c = 0 then 0 else c * 10 ^ (e - f).toNat : Nat) : Int)
  let small : Int := (if t then -1 else 1) * (k : Int)
  let sum := big + small
  let negative := if sum = 0 then s && t else decide (sum < 0)
  fit negative sum.natAbs f

def add : Decimal → Decimal → Except ArithmeticFault Decimal
  | .nan s g p, y =>
    if g || multiply.isSignaling y then .error .invalidOperation else .ok (.nan s false p)
  | _, .nan s g p => if g then .error .invalidOperation else .ok (.nan s false p)
  | .infinite s, .infinite t => if s = t then .ok (.infinite s) else .error .invalidOperation
  | .infinite s, _ => .ok (.infinite s)
  | _, .infinite s => .ok (.infinite s)
  | .finite s c e, .finite t k f =>
    if f ≤ e then addAligned s c e t k f else addAligned t k f s c e

/-- The same value with the given exponent. A value that does not fit the precision with
that exponent has none. -/
def quantize (tie : Tie) (exponent : Int) : Decimal → Except ArithmeticFault Decimal
  | .nan s g p => if g then .error .invalidOperation else .ok (.nan s false p)
  | .infinite _ => .error .invalidOperation
  | .finite s c e =>
    if c = 0 then .ok (.finite s 0 exponent)
    else if (precision : Int) < digitCount c + (e - exponent) then .error .invalidOperation
    else
      let k := if exponent ≤ e then c * 10 ^ (e - exponent).toNat
        else dropDigits tie c (exponent - e).toNat
      if precision < digitCount k then .error .invalidOperation else .ok (.finite s k exponent)

def toCents (tie : Tie) (d : Decimal) : Except ArithmeticFault Decimal := d.quantize tie (-2)

/-- The coefficient without its trailing zeros, `fuel` of them at most, and its exponent. -/
def stripZeros : Nat → Nat → Int → Nat × Int
  | 0, c, e => (c, e)
  | fuel + 1, c, e => if c ≠ 0 ∧ c % 10 = 0 then stripZeros fuel (c / 10) (e + 1) else (c, e)

def normalize : Decimal → Except ArithmeticFault Decimal
  | .finite s c e => do
    match ← fit s c e with
    | .finite s c e =>
      if c = 0 then .ok (.finite s 0 0)
      else
        let (c, e) := stripZeros (digitCount c) c e
        .ok (.finite s c e)
    | d => .ok d
  | .nan s g p => if g then .error .invalidOperation else .ok (.nan s false p)
  | .infinite s => .ok (.infinite s)

/-- Order of two finite decimals: true when the first is below the second. A leading digit
of a larger power decides without aligning the exponents. -/
def finiteBelow (s : Bool) (c : Nat) (e : Int) (t : Bool) (k : Nat) (f : Int) : Bool :=
  let signed (negative : Bool) (n : Nat) : Int := if negative then -n else n
  if c = 0 ∨ k = 0 ∨ s ≠ t then decide (signed s c < signed t k)
  else
    let a := adjusted c e
    let b := adjusted k f
    if a < b then !s
    else if b < a then s
    else
      let unit := min e f
      decide (signed s (c * 10 ^ (e - unit).toNat) < signed t (k * 10 ^ (f - unit).toNat))

def below : Decimal → Decimal → Except ArithmeticFault Bool
  | .nan .., _ => .error .invalidOperation
  | _, .nan .. => .error .invalidOperation
  | .infinite s, .infinite t => .ok (s && !t)
  | .infinite s, .finite .. => .ok s
  | .finite .., .infinite t => .ok (!t)
  | .finite s c e, .finite t k f => .ok (finiteBelow s c e t k f)

end Decimal
end Stockroom
