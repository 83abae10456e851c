import Stockroom.Text.Digit
import Stockroom.Text.Quoted
import Stockroom.Text.Utf8

namespace Stockroom.Text

def escapedByte? : List Char → Option Nat
  | h :: l :: _ =>
    match hexValue? h, hexValue? l with
    | some h, some l => some (16 * h + l)
    | _, _ => none
  | _ => none

/-- The bytes an escaped text stands for, after as many characters as `skip` says. -/
def percentBytes : Nat → List Char → List Nat
  | _, [] => []
  | skip + 1, _ :: rest => percentBytes skip rest
  | 0, c :: rest =>
    if c = '%' then
      match escapedByte? rest with
      | some b => b :: percentBytes 2 rest
      | none => 0x25 :: percentBytes 0 rest
    else utf8 c ++ percentBytes 0 rest

def percentDecoded (cs : List Char) : List Char := readUtf8 (percentBytes 0 cs)

def byteEscape (b : Nat) : List Char := '%' :: (hexDigits 2 b).map Char.toUpper

def percentEncoded (keep : Char → Bool) (cs : List Char) : List Char :=
  cs.flatMap fun c => if keep c then [c] else (utf8 c).flatMap byteEscape

def percentCompleted : List Char → List Char
  | [] => []
  | c :: rest =>
    if c = '%' && (escapedByte? rest).isNone then byteEscape 0x25 ++ percentCompleted rest
    else c :: percentCompleted rest

def isUnreserved (c : Char) : Bool := c.isAlphanum || ['-', '.', '_', '~'].contains c

end Stockroom.Text
