namespace Stockroom.Text

def utf8 (c : Char) : List Nat :=
  let n := c.toNat
  if n < 0x80 then [n]
  else if n < 0x800 then [0xC0 + n / 0x40, 0x80 + n % 0x40]
  else if n < 0x10000 then [0xE0 + n / 0x1000, 0x80 + n / 0x40 % 0x40, 0x80 + n % 0x40]
  else [0xF0 + n / 0x40000, 0x80 + n / 0x1000 % 0x40, 0x80 + n / 0x40 % 0x40, 0x80 + n % 0x40]

structure Begun where
  bits : Nat
  /-- How many bytes are still to come. -/
  owed : Nat
  /-- The least byte that may come next. -/
  low : Nat := 0x80
  /-- The greatest byte that may come next. -/
  high : Nat := 0xBF
  deriving DecidableEq, Repr

/-- What a first byte of several begins. The bounds on the second byte leave out what a
shorter form or no character stands for. -/
def begun? (b : Nat) : Option Begun :=
  if 0xC2 ≤ b && b ≤ 0xDF then some { bits := b - 0xC0, owed := 1 }
  else if b = 0xE0 then some { bits := 0, owed := 2, low := 0xA0 }
  else if b = 0xED then some { bits := 0xD, owed := 2, high := 0x9F }
  else if 0xE1 ≤ b && b ≤ 0xEF then some { bits := b - 0xE0, owed := 2 }
  else if b = 0xF0 then some { bits := 0, owed := 3, low := 0x90 }
  else if 0xF1 ≤ b && b ≤ 0xF3 then some { bits := b - 0xF0, owed := 3 }
  else if b = 0xF4 then some { bits := 4, owed := 3, high := 0x8F }
  else none

def firstByte (b : Nat) : List Char × Option Begun :=
  if b < 0x80 then ([Char.ofNat b], none)
  else match begun? b with
    | some p => ([], some p)
    | none => (['\uFFFD'], none)

def nextByte : Option Begun → Nat → List Char × Option Begun
  | none, b => firstByte b
  | some p, b =>
    if p.low ≤ b && b ≤ p.high then
      let bits := p.bits * 0x40 + (b - 0x80)
      if p.owed ≤ 1 then ([Char.ofNat bits], none) else ([], some { bits, owed := p.owed - 1 })
    else ('\uFFFD' :: (firstByte b).1, (firstByte b).2)

def readUtf8After : Option Begun → List Nat → List Char
  | none, [] => []
  | some _, [] => ['\uFFFD']
  | p, b :: rest => (nextByte p b).1 ++ readUtf8After (nextByte p b).2 rest

def readUtf8 (bytes : List Nat) : List Char := readUtf8After none bytes

end Stockroom.Text
