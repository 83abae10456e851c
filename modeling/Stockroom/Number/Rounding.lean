/-! Whole-number quotients rounded to nearest.
Money and binary fractions are both kept as whole numbers, so every rounding of the
library is the rounding of one quotient of natural numbers. A quotient exactly half
way between two whole numbers goes where `Tie` says; any other goes to the nearer. -/
namespace Stockroom

namespace CorePower

-- With this open, a power is that of the core library, whatever else is imported.
attribute [scoped instance(2000)] instPowNat

end CorePower

open scoped CorePower

inductive Tie where
  /-- to the even neighbour -/
  | even
  /-- to the larger neighbour, hence away from zero for a magnitude -/
  | away
  deriving DecidableEq, Repr

def Tie.carries (tie : Tie) (quotient remainder divisor : Nat) : Bool :=
  if 2 * remainder < divisor then false
  else if divisor < 2 * remainder then true
  else match tie with
    | .even => quotient % 2 == 1
    | .away => true

def divideRounded (tie : Tie) (n d : Nat) : Nat :=
  if tie.carries (n / d) (n % d) d then n / d + 1 else n / d

def digitCount (n : Nat) : Nat := (Nat.toDigits 10 n).length

/-- `n` with its last `k` decimal digits rounded away. A number of fewer than `k` digits
is below a tenth of the unit, so it goes to zero under either tie. -/
def dropDigits (tie : Tie) (n k : Nat) : Nat :=
  if digitCount n < k then 0 else divideRounded tie n (10 ^ k)

/-- The exponent of the largest power of `base` that is at most `n / d`, for positive
`n` and `d`, from an estimate that is right or one too large. -/
def quotientLog (base : Nat) (estimate : Int) (n d : Nat) : Int :=
  let reached := if 0 ≤ estimate then base ^ estimate.toNat * d ≤ n
    else d ≤ n * base ^ (-estimate).toNat
  if reached then estimate else estimate - 1

def quotientLog2 (n d : Nat) : Int := quotientLog 2 ((n.log2 : Int) - d.log2) n d

def quotientLog10 (n d : Nat) : Int := quotientLog 10 ((digitCount n : Int) - digitCount d) n d

/-- `n / d · base ^ k` as a quotient of natural numbers. -/
def scaleQuotient (base : Nat) (k : Int) (n d : Nat) : Nat × Nat :=
  if 0 ≤ k then (n * base ^ k.toNat, d) else (n, d * base ^ (-k).toNat)

end Stockroom
