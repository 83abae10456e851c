import Stockroom.Number.Decimal
import Stockroom.Text.Numeral

/-! Binary fractions of 53 significant bits.
A finite value is `± significand · 2 ^ exponent`. Its form is unique: the significand has 53
bits, or fewer when the exponent is the least one. Arithmetic is exact on whole numbers
followed by one rounding to the nearest value, a half going to the even significand; a
magnitude too large becomes infinite. -/
namespace Stockroom

open scoped CorePower

inductive Binary64 where
  | finite (negative : Bool) (significand : Nat) (exponent : Int)
  | infinite (negative : Bool)
  | nan
  deriving DecidableEq, Repr, Inhabited

namespace Binary64

def leastExponent : Int := -1074

def greatestExponent : Int := 971

def zero : Binary64 := .finite false 0 leastExponent

def settle (negative : Bool) (significand : Nat) (exponent : Int) : Binary64 :=
  let (m, e) :=
    if significand = 2 ^ (53 : Nat) then (2 ^ (52 : Nat), exponent + 1) else (significand, exponent)
  if greatestExponent < e then .infinite negative else .finite negative m e

/-- The value nearest to `± n / d`, for a positive `d`. -/
def ofRatio (negative : Bool) (n d : Nat) : Binary64 :=
  if n = 0 then .finite negative 0 leastExponent
  else
    let e := max (quotientLog2 n d - 52) leastExponent
    let (n, d) := scaleQuotient 2 (-e) n d
    settle negative (divideRounded .even n d) e

def ofInt (n : Int) : Binary64 := ofRatio (n < 0) n.natAbs 1

/-- The value nearest to `± coefficient · 10 ^ exponent`. Magnitudes that are certainly too
large or too small are decided by their leading digit. -/
def ofPower10 (negative : Bool) (coefficient : Nat) (exponent : Int) : Binary64 :=
  if coefficient = 0 then .finite negative 0 leastExponent
  else if 310 < Decimal.adjusted coefficient exponent then .infinite negative
  else if Decimal.adjusted coefficient exponent < -330 then .finite negative 0 leastExponent
  else
    let (n, d) := scaleQuotient 10 exponent coefficient 1
    ofRatio negative n d

def ofDecimal : Decimal → Binary64
  | .finite s c e => ofPower10 s c e
  | .infinite s => .infinite s
  | .nan .. => .nan

def ofNumeral (n : Text.Numeral) : Binary64 := ofPower10 n.negative n.coefficient n.exponent

def isFinite : Binary64 → Bool
  | .finite .. => true
  | _ => false

def isNaN : Binary64 → Bool
  | .nan => true
  | _ => false

def ratio (significand : Nat) (exponent : Int) : Nat × Nat :=
  scaleQuotient 2 exponent significand 1

def inUnits (unit : Int) (negative : Bool) (significand : Nat) (exponent : Int) : Int :=
  let magnitude : Int := significand * 2 ^ (exponent - unit).toNat
  if negative then -magnitude else magnitude

def toInt? : Binary64 → Option Int
  | .finite s m e =>
    let (n, d) := ratio m e
    let whole : Int := (n / d : Nat)
    if n % d = 0 then some (if s then -whole else whole) else none
  | _ => none

def add : Binary64 → Binary64 → Binary64
  | .nan, _ => .nan
  | _, .nan => .nan
  | .infinite s, .infinite t => if s = t then .infinite s else .nan
  | .infinite s, _ => .infinite s
  | _, .infinite t => .infinite t
  | .finite s m e, .finite t k f =>
    let unit := min e f
    let sum := inUnits unit s m e + inUnits unit t k f
    if sum = 0 then .finite (s && t) 0 leastExponent
    else
      let (n, d) := scaleQuotient 2 unit sum.natAbs 1
      ofRatio (sum < 0) n d

def multiply : Binary64 → Binary64 → Binary64
  | .nan, _ => .nan
  | _, .nan => .nan
  | .infinite s, .infinite t => .infinite (s != t)
  | .infinite s, .finite t k _ => if k = 0 then .nan else .infinite (s != t)
  | .finite s m _, .infinite t => if m = 0 then .nan else .infinite (s != t)
  | .finite s m e, .finite t k f =>
    let (n, d) := scaleQuotient 2 (e + f) (m * k) 1
    ofRatio (s != t) n d

def divideNat (x : Binary64) (divisor : Nat) : Binary64 :=
  match x with
  | .finite s m e =>
    let (n, d) := ratio m e
    ofRatio s n (d * divisor)
  | x => x

/-- True when the first value is strictly smaller; false if either is no number. -/
def below : Binary64 → Binary64 → Bool
  | .nan, _ => false
  | _, .nan => false
  | .infinite s, .infinite t => s && !t
  | .infinite s, .finite .. => s
  | .finite .., .infinite t => !t
  | .finite s m e, .finite t k f =>
    let unit := min e f
    decide (inUnits unit s m e < inUnits unit t k f)

def atMost : Binary64 → Binary64 → Bool
  | .nan, _ => false
  | _, .nan => false
  | x, y => !below y x

def belowInt (x : Binary64) (bound : Int) : Bool :=
  match x with
  | .nan => false
  | .infinite s => s
  | .finite s m e =>
    let unit := min e 0
    decide (inUnits unit s m e < bound * 2 ^ (-unit).toNat)

def toBits : Binary64 → Nat
  | .nan => 0x7FF8000000000000
  | .infinite s => (if s then 2 ^ (63 : Nat) else 0) + 0x7FF0000000000000
  | .finite s m e =>
    let high : Nat := if m < 2 ^ (52 : Nat) then 0 else (e - leastExponent + 1).toNat
    (if s then 2 ^ (63 : Nat) else 0) + high * 2 ^ (52 : Nat) + m % (2 ^ (52 : Nat))

def ofBits (bits : Nat) : Binary64 :=
  let negative := 2 ^ (63 : Nat) ≤ bits
  let high : Nat := bits / 2 ^ (52 : Nat) % 2 ^ (11 : Nat)
  let low : Nat := bits % 2 ^ (52 : Nat)
  if high = 2047 then (if low = 0 then .infinite negative else .nan)
  else if high = 0 then .finite negative low leastExponent
  else .finite negative (2 ^ (52 : Nat) + low) (leastExponent + high - 1)

end Binary64
end Stockroom
