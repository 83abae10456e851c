import Stockroom.Number.Binary64

/-! Powers with whole exponents, rounded once.
The exact power of a binary fraction soon has millions of digits. A lower and an upper
bound of it with a limited number of bits usually round to the same value, which is then
the rounding of the power itself; else more bits are used, in the end all of them. -/
namespace Stockroom

open scoped CorePower

namespace Binary64

/-- A positive number between `low · 2 ^ exponent` and `high · 2 ^ exponent`. -/
structure Bracket where
  low : Nat
  high : Nat
  exponent : Int
  deriving DecidableEq, Repr

namespace Bracket

def exact (n : Nat) (exponent : Int) : Bracket := ⟨n, n, exponent⟩

/-- The bracket with at most `bits` bits of its lower end, widened by what is cut off. -/
def shorten (bits : Nat) (b : Bracket) : Bracket :=
  let extra := b.low.log2 + 1 - bits
  let unit := 2 ^ extra
  ⟨b.low / unit, (b.high + unit - 1) / unit, b.exponent + extra⟩

def multiply (bits : Nat) (a b : Bracket) : Bracket :=
  shorten bits ⟨a.low * b.low, a.high * b.high, a.exponent + b.exponent⟩

def power (bits : Nat) (base : Bracket) : Nat → Nat → Bracket
  | 0, _ => exact 1 0
  | fuel + 1, k =>
    if k = 0 then exact 1 0
    else
      let half := power bits base fuel (k / 2)
      let square := multiply bits half half
      if k % 2 = 1 then multiply bits square base else square

/-- Both ends of the bracket, or of its reciprocal, rounded. A power of two beyond the
range on either side decides without forming the quotient. -/
def rounded (inverse : Bool) (n : Nat) (exponent : Int) : Binary64 :=
  let top : Int := n.log2 + exponent
  if 1100 < top then (if inverse then zero else .infinite false)
  else if top < -1100 then (if inverse then .infinite false else zero)
  else
    let (n, d) := scaleQuotient 2 exponent n 1
    if inverse then ofRatio false d n else ofRatio false n d

def agreed? (inverse : Bool) (b : Bracket) : Option Binary64 :=
  let x := rounded inverse b.low b.exponent
  if x = rounded inverse b.high b.exponent then some x else none

end Bracket

def powerBits : List Nat := [128, 256, 1024, 8192]

def magnitudePower (significand : Nat) (exponent : Int) (inverse : Bool) (k : Nat) : Binary64 :=
  let base := Bracket.exact significand exponent
  let attempt (bits : Nat) := (base.power bits (k.log2 + 1) k).agreed? inverse
  match powerBits.findSome? attempt with
  | some x => x
  | none => Bracket.rounded inverse (significand ^ k) (exponent * k)

/-- A value of at least zero to a whole power, correctly rounded. The power function of a
platform may differ from it in the last bit, as some do for `1.5 ^ 34`. The zeroth power is
one; an infinite base stays infinite or vanishes. -/
def power (x : Binary64) (k : Int) : Binary64 :=
  if k = 0 then ofInt 1
  else match x with
    | .nan => .nan
    | .infinite _ => if k < 0 then zero else .infinite false
    | .finite _ m e =>
      if m = 0 then (if k < 0 then .infinite false else zero)
      else magnitudePower m e (k < 0) k.natAbs

end Binary64
end Stockroom
