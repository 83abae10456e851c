import Stockroom.Text.CaseTable

namespace Stockroom.Text

def shiftIn (runs : List (Nat × Nat × Nat × Int)) (n : Nat) : Nat :=
  match runs.find? fun r => r.1 ≤ n && n ≤ r.2.1 && (n - r.1) % r.2.2.1 == 0 with
  | some r => ((n : Int) + r.2.2.2).toNat
  | none => n

def recase (expansions : List (Nat × List Nat)) (runs : List (Nat × Nat × Nat × Int))
    (c : Char) : List Char :=
  match expansions.find? fun x => x.1 == c.toNat with
  | some x => x.2.map Char.ofNat
  | none => [Char.ofNat (shiftIn runs c.toNat)]

def isIn (runs : List (Nat × Nat)) (c : Char) : Bool :=
  runs.any fun r => r.1 ≤ c.toNat && c.toNat ≤ r.2

def meetsLetter : List Char → Bool
  | [] => false
  | c :: rest => if isIn caselessMarkRuns c then meetsLetter rest else isIn casedRuns c

/-- The lower case of a letter between the characters before it, nearest first, and those
after it. -/
def lowerAt (before : List Char) (c : Char) (after : List Char) : List Char :=
  if c = 'Σ' then [if meetsLetter before && !meetsLetter after then 'ς' else 'σ']
  else recase lowerExpansions lowerRuns c

def lowerFrom (before : List Char) : List Char → List Char
  | [] => []
  | c :: rest => lowerAt before c rest ++ lowerFrom (c :: before) rest

def lower (s : String) : String := String.ofList (lowerFrom [] s.toList)

def upper (s : String) : String :=
  String.ofList (s.toList.flatMap (recase upperExpansions upperRuns))

end Stockroom.Text
