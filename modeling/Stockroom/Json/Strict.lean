import Stockroom.Json.Reading

namespace Stockroom
namespace Json

inductive WriteFault where
  | notFinite
  /-- A run of halves of surrogate pairs, the first with the given code, at a place of the
  written form. -/
  | halves (place count code : Nat)
  deriving DecidableEq, Repr

def WriteFault.message : WriteFault → String
  | .notFinite => "Out of range float values are not JSON compliant"
  | .halves place count code =>
    if count = 1 then
      "'utf-8' codec can't encode character '\\u" ++ String.ofList (Text.hexDigits 4 code) ++
        "' in position " ++ toString place ++ ": surrogates not allowed"
    else
      "'utf-8' codec can't encode characters in position " ++ toString place ++ "-" ++
        toString (place + count - 1) ++ ": surrogates not allowed"

mutual

def isFinite : Json → Bool
  | .fraction x => x.isFinite
  | .array items => areFinite items
  | .object members => haveFinite members
  | _ => true

def areFinite : List Json → Bool
  | [] => true
  | x :: rest => isFinite x && areFinite rest

def haveFinite : List (String × Json) → Bool
  | [] => true
  | (name, x) :: rest => ((lookup name rest).isSome || isFinite x) && haveFinite rest

end

def halfCode? (cs : List Char) : Option Nat := (hexCode? cs).filter fun code => !isScalar code

def halvesAtFront : List Char → Nat
  | '\\' :: 'u' :: a :: b :: c :: d :: rest =>
    if (halfCode? [a, b, c, d]).isSome then halvesAtFront rest + 1 else 0
  | _ => 0

/-- The first run of escaped halves in a written form whose front stands at a place. Before
the first of them the strict form has as many characters. -/
def firstHalves? (place : Nat) : List Char → Option WriteFault
  | '\\' :: c :: rest =>
    match if c = 'u' then halfCode? rest else none with
    | some code => some (.halves place (halvesAtFront ('\\' :: c :: rest)) code)
    | none => firstHalves? (place + 2) rest
  | _ :: rest => firstHalves? (place + 1) rest
  | [] => none

def writeFault? (x : Json) : Option WriteFault :=
  if isFinite x then firstHalves? 0 x.chars else some .notFinite

end Json
end Stockroom
