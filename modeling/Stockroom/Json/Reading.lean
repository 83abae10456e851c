import Stockroom.Json.Basic

/-! Reading data documents.
Beyond the standard grammar the names `NaN`, `Infinity` and `-Infinity` stand for fractions.
A text that is no document is refused at the character where reading stopped. A whole number
of too many digits and a nesting that is too deep are refused for themselves. -/
namespace Stockroom
namespace Json

structure Dialect where
  /-- How many lists and objects may be open at once. -/
  depth : Nat
  /-- Whether half of a surrogate pair may stand alone. -/
  loneSurrogates : Bool

inductive ReadFault where
  /-- Reading stopped at this character, counted from zero. -/
  | malformed (position : Nat)
  | numberTooLong
  | tooDeep
  deriving DecidableEq, Repr

structure Cursor where
  position : Nat
  rest : List Char

namespace Cursor

def ofText (s : String) : Cursor := ⟨0, s.toList⟩

def advance (c : Cursor) (n : Nat) : Cursor := ⟨c.position + n, c.rest.drop n⟩

def skipWhile (test : Char → Bool) (c : Cursor) : Cursor :=
  ⟨c.position + (c.rest.takeWhile test).length, c.rest.dropWhile test⟩

def skipBlank (c : Cursor) : Cursor :=
  c.skipWhile fun ch => ch == ' ' || ch == '\t' || ch == '\n' || ch == '\r'

def word? (w : String) (c : Cursor) : Option Cursor :=
  if w.toList.isPrefixOf c.rest then some (c.advance w.length) else none

end Cursor

abbrev Found (α : Type) := Except ReadFault (α × Cursor)

def hexCode? (cs : List Char) : Option Nat :=
  match cs with
  | a :: b :: c :: d :: _ => do
    let a ← Text.hexValue? a
    let b ← Text.hexValue? b
    let c ← Text.hexValue? c
    let d ← Text.hexValue? d
    some (((a * 16 + b) * 16 + c) * 16 + d)
  | _ => none

def escapeCode? (c : Char) : Option Nat :=
  if c = '"' || c = '\\' || c = '/' then some c.toNat
  else if c = 'b' then some 8
  else if c = 'f' then some 12
  else if c = 'n' then some 10
  else if c = 'r' then some 13
  else if c = 't' then some 9
  else none

def isHighSurrogate (code : Nat) : Bool := 0xD800 ≤ code && code ≤ 0xDBFF

def isLowSurrogate (code : Nat) : Bool := 0xDC00 ≤ code && code ≤ 0xDFFF

def joinSurrogates (high low : Nat) : Nat := 0x10000 + (high - 0xD800) * 0x400 + (low - 0xDC00)

/-- The code point of an escape by number, with the cursor on its `u`: four digits and a
character behind them. The second half of a pair belongs to the first. -/
def numberedEscape (c : Cursor) : Found Nat :=
  if (c.rest.drop 5).isEmpty then .error (.malformed c.position)
  else match hexCode? (c.rest.drop 1) with
    | none => .error (.malformed c.position)
    | some code =>
      let next := c.advance 5
      if isHighSurrogate code && !(next.rest.drop 6).isEmpty &&
          ['\\', 'u'].isPrefixOf next.rest then
        match hexCode? (next.rest.drop 2) with
        | none => .error (.malformed (next.position + 1))
        | some low =>
          if isLowSurrogate low then .ok (joinSurrogates code low, next.advance 6)
          else .ok (code, next)
      else .ok (code, next)

/-- The code points up to the closing quote, of a text whose opening quote stands at `start`.
`fuel` bounds the number of code points. -/
def textCodes (d : Dialect) (start : Nat) : Nat → List Nat → Cursor → Found (List Nat)
  | 0, _, _ => .error (.malformed start)
  | fuel + 1, codes, c =>
    match c.rest with
    | [] => .error (.malformed start)
    | ch :: rest =>
      if ch = '"' then .ok (codes.reverse, c.advance 1)
      else if ch.toNat < 0x20 then .error (.malformed c.position)
      else if ch ≠ '\\' then textCodes d start fuel (ch.toNat :: codes) (c.advance 1)
      else match rest with
        | [] => .error (.malformed start)
        | e :: _ =>
          if e = 'u' then
            match numberedEscape (c.advance 1) with
            | .error f => .error f
            | .ok (code, c) =>
              if d.loneSurrogates || isScalar code then textCodes d start fuel (code :: codes) c
              else .error (.malformed c.position)
          else match escapeCode? e with
            | some code => textCodes d start fuel (code :: codes) (c.advance 2)
            | none => .error (.malformed c.position)

def readText (d : Dialect) (fuel : Nat) (c : Cursor) : Found (List Nat) :=
  textCodes d c.position fuel [] (c.advance 1)

def fractionRun : List Char → List Char
  | '.' :: cs => if cs.takeWhile Char.isDigit = [] then [] else '.' :: cs.takeWhile Char.isDigit
  | _ => []

def powerRun : List Char → List Char
  | e :: cs =>
    if e = 'e' || e = 'E' then
      let sign := match cs with
        | s :: _ => if s = '+' || s = '-' then [s] else []
        | [] => []
      let digits := (cs.drop sign.length).takeWhile Char.isDigit
      if digits = [] then [] else e :: (sign ++ digits)
    else []
  | [] => []

def wholeRun : List Char → List Char
  | c :: cs =>
    if c = '0' then [c]
    else if c.isDigit then c :: cs.takeWhile Char.isDigit
    else []
  | [] => []

def readNumber (c : Cursor) : Found Json :=
  let (negative, cs) := match c.rest with
    | '-' :: cs => (true, cs)
    | cs => (false, cs)
  let whole := wholeRun cs
  if whole = [] then .error (.malformed c.position)
  else
    let fraction := fractionRun (cs.drop whole.length)
    let power := powerRun ((cs.drop whole.length).drop fraction.length)
    let run := whole ++ fraction ++ power
    let next := c.advance (run.length + if negative then 1 else 0)
    if fraction = [] && power = [] then
      if Text.digitLimit < whole.length then .error .numberTooLong
      else
        let n : Int := Text.digitsValue whole
        .ok (.integer (if negative then -n else n), next)
    else match Text.unsignedNumeral? negative run with
      | some x => .ok (.fraction (.ofNumeral x), next)
      | none => .error (.malformed c.position)

def readScalar (c : Cursor) : Found Json :=
  match c.word? "null", c.word? "true", c.word? "false" with
  | some next, _, _ => .ok (.null, next)
  | _, some next, _ => .ok (.bool true, next)
  | _, _, some next => .ok (.bool false, next)
  | _, _, _ =>
    match c.word? "NaN", c.word? "Infinity", c.word? "-Infinity" with
    | some next, _, _ => .ok (.fraction .nan, next)
    | _, some next, _ => .ok (.fraction (.infinite false), next)
    | _, _, some next => .ok (.fraction (.infinite true), next)
    | _, _, _ => readNumber c

/-- The name of a member: broken code points are replaced, since no name in use has any. -/
def nameOfCodes (codes : List Nat) : String :=
  String.ofList (codes.map fun n => if isScalar n then Char.ofNat n else '\uFFFD')

mutual

/-- A value, with the cursor on its first character. `fuel` bounds the number of steps and
`depth` the number of lists and objects that may still be opened. -/
def readValue (d : Dialect) : Nat → Nat → Cursor → Found Json
  | 0, _, c => .error (.malformed c.position)
  | fuel + 1, depth, c =>
    match c.rest with
    | [] => .error (.malformed c.position)
    | ch :: _ =>
      if ch = '"' then
        match readText d fuel c with
        | .error f => .error f
        | .ok (codes, c) => .ok (ofCodes codes, c)
      else if ch = '[' then
        match depth with
        | 0 => .error .tooDeep
        | depth + 1 =>
          let c := (c.advance 1).skipBlank
          match c.rest with
          | ']' :: _ => .ok (.array [], c.advance 1)
          | _ => readItems d fuel depth [] c
      else if ch = '\x7b' then
        match depth with
        | 0 => .error .tooDeep
        | depth + 1 =>
          let c := (c.advance 1).skipBlank
          match c.rest with
          | '\x7d' :: _ => .ok (.object [], c.advance 1)
          | _ => readMembers d fuel depth [] c
      else readScalar c

def readItems (d : Dialect) : Nat → Nat → List Json → Cursor → Found Json
  | 0, _, _, c => .error (.malformed c.position)
  | fuel + 1, depth, items, c =>
    match readValue d fuel depth c with
    | .error f => .error f
    | .ok (x, c) =>
      let c := c.skipBlank
      match c.rest with
      | ']' :: _ => .ok (.array (x :: items).reverse, c.advance 1)
      | ',' :: _ => readItems d fuel depth (x :: items) (c.advance 1).skipBlank
      | _ => .error (.malformed c.position)

def readMembers (d : Dialect) : Nat → Nat → List (String × Json) → Cursor → Found Json
  | 0, _, _, c => .error (.malformed c.position)
  | fuel + 1, depth, members, c =>
    match c.rest with
    | '"' :: _ =>
      match readText d fuel c with
      | .error f => .error f
      | .ok (codes, c) =>
        let c := c.skipBlank
        match c.rest with
        | ':' :: _ =>
          match readValue d fuel depth (c.advance 1).skipBlank with
          | .error f => .error f
          | .ok (x, c) =>
            let c := c.skipBlank
            let members := (nameOfCodes codes, x) :: members
            match c.rest with
            | '\x7d' :: _ => .ok (.object members.reverse, c.advance 1)
            | ',' :: _ => readMembers d fuel depth members (c.advance 1).skipBlank
            | _ => .error (.malformed c.position)
        | _ => .error (.malformed c.position)
    | _ => .error (.malformed c.position)

end

def read (d : Dialect) (s : String) : Except ReadFault Json :=
  let c := (Cursor.ofText s).skipBlank
  match readValue d (2 * c.rest.length + 2) d.depth c with
  | .error f => .error f
  | .ok (x, c) =>
    let c := c.skipBlank
    if c.rest = [] then .ok x else .error (.malformed c.position)

end Json
end Stockroom
