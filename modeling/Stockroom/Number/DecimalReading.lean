import Stockroom.Number.Decimal
import Stockroom.Text.Numeral

namespace Stockroom
namespace Decimal

open Text

def powerLimit : Int := 999999999999999999

def powerFloor : Int := -1999999999999999997

def ofNumeral? (n : Numeral) : Option Decimal :=
  let top := if n.coefficient = 0 then n.exponent else adjusted n.coefficient n.exponent
  if top ≤ powerLimit && powerFloor ≤ n.exponent then
    some (.finite n.negative n.coefficient n.exponent)
  else none

def nanOf? (negative signaling : Bool) (digits : List Char) : Option Decimal :=
  if digits.all Char.isDigit then some (.nan negative signaling (digitsValue digits)) else none

def readUnsigned? (negative : Bool) (cs : List Char) : Option Decimal :=
  if spells "inf" cs || spells "infinity" cs then some (.infinite negative)
  else if spells "nan" (cs.take 3) then nanOf? negative false (cs.drop 3)
  else if spells "snan" (cs.take 4) then nanOf? negative true (cs.drop 4)
  else (unsignedNumeral? negative cs).bind ofNumeral?

def readChars? (cs : List Char) : Option Decimal :=
  let cs := ((trim isSpacing cs).filter (· ≠ '_')).map plainDigit
  let (negative, cs) := splitSign cs
  readUnsigned? negative cs

def read? (s : String) : Option Decimal := readChars? s.toList

end Decimal
end Stockroom
