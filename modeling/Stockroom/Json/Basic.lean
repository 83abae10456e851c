import Stockroom.Number.Binary64Text
import Stockroom.Text.Quoted

namespace Stockroom

inductive Json where
  | null
  | bool (b : Bool)
  | integer (n : Int)
  | fraction (x : Binary64)
  | text (s : String)
  /-- A text with code points that are no characters. -/
  | broken (codes : List Nat)
  | array (items : List Json)
  | object (members : List (String × Json))
  deriving Inhabited

namespace Json

def lookup (name : String) (members : List (String × Json)) : Option Json :=
  (members.reverse.find? fun m => m.1 == name).map (·.2)

def member? (name : String) : Json → Option Json
  | .object ms => lookup name ms
  | _ => none

def isScalar (code : Nat) : Bool := code < 0xD800 || (0xDFFF < code && code < 0x110000)

def ofCodes (codes : List Nat) : Json :=
  if codes.all isScalar then .text (String.ofList (codes.map Char.ofNat)) else .broken codes

/- Written form -/

/-- A code point inside a quoted text. Quotes, backslashes and control characters are
escaped, other characters stand for themselves. -/
def escapedCode (code : Nat) : List Char :=
  if code = 0x22 then ['\\', '"']
  else if code = 0x5C then ['\\', '\\']
  else if code = 0x08 then ['\\', 'b']
  else if code = 0x09 then ['\\', 't']
  else if code = 0x0A then ['\\', 'n']
  else if code = 0x0C then ['\\', 'f']
  else if code = 0x0D then ['\\', 'r']
  else if code < 0x20 || !isScalar code then '\\' :: 'u' :: Text.hexDigits 4 code
  else [Char.ofNat code]

def quotedText (s : String) : List Char :=
  '"' :: (s.toList.flatMap (escapedCode ·.toNat) ++ ['"'])

def integerChars (n : Int) : List Char :=
  (if n < 0 then ['-'] else []) ++ Nat.toDigits 10 n.natAbs

def fractionChars : Binary64 → List Char
  | .nan => "NaN".toList
  | .infinite s => if s then "-Infinity".toList else "Infinity".toList
  | x => x.toText.toList

mutual

def chars : Json → List Char
  | .null => "null".toList
  | .bool b => (if b then "true" else "false").toList
  | .integer n => integerChars n
  | .fraction x => fractionChars x
  | .text s => quotedText s
  | .broken codes => '"' :: (codes.flatMap escapedCode ++ ['"'])
  | .array items => '[' :: (itemChars items ++ [']'])
  | .object members => '\x7b' :: (memberChars members ++ ['\x7d'])

def itemChars : List Json → List Char
  | [] => []
  | [x] => chars x
  | x :: rest => chars x ++ ',' :: itemChars rest

def memberChars : List (String × Json) → List Char
  | [] => []
  | [(name, x)] => quotedText name ++ ':' :: chars x
  | (name, x) :: rest => quotedText name ++ ':' :: (chars x ++ ',' :: memberChars rest)

end

def compact (x : Json) : String := String.ofList x.chars

end Json
end Stockroom
