import Stockroom.Time.Calendar
import Stockroom.Text.Numeral

/-! Moments, counted in microseconds.
A moment lies in the years 1 to 9999. It has two written forms: one for people, which leaves
out a fraction of zero, and one for the tables, which always has six digits of fraction. A
span is a whole number of microseconds and moves a moment only within those years. -/
namespace Stockroom

def Moment.limit : Nat := 315537897600000000

/-- A point in time, in microseconds from the start of year 1. -/
structure Moment where
  micros : Nat
  inRange : micros < Moment.limit
  deriving DecidableEq

namespace Moment

def microsPerSecond : Nat := 1000000

def microsPerDay : Nat := 86400 * microsPerSecond

instance : LE Moment := ⟨fun a b => a.micros ≤ b.micros⟩

instance : LT Moment := ⟨fun a b => a.micros < b.micros⟩

instance (a b : Moment) : Decidable (a ≤ b) := inferInstanceAs (Decidable (a.micros ≤ b.micros))

instance (a b : Moment) : Decidable (a < b) := inferInstanceAs (Decidable (a.micros < b.micros))

def ofMicros? (micros : Int) : Option Moment :=
  if h : micros.toNat < limit then (if 0 ≤ micros then some ⟨micros.toNat, h⟩ else none) else none

def shift? (m : Moment) (span : Int) : Option Moment := ofMicros? (m.micros + span)

def fixedDigits : Nat → Nat → List Char
  | 0, _ => []
  | width + 1, n => fixedDigits width (n / 10) ++ [Nat.digitChar (n % 10)]

def date (m : Moment) : Date := Date.ofDays (m.micros / microsPerDay)

def secondOfDay (m : Moment) : Nat := m.micros / microsPerSecond % 86400

def fraction (m : Moment) : Nat := m.micros % microsPerSecond

def dateChars (m : Moment) : List Char :=
  fixedDigits 4 m.date.year ++ '-' :: (fixedDigits 2 m.date.month ++ '-' :: fixedDigits 2 m.date.day)

def clockChars (m : Moment) : List Char :=
  let s := m.secondOfDay
  fixedDigits 2 (s / 3600) ++ ':' :: (fixedDigits 2 (s / 60 % 60) ++ ':' :: fixedDigits 2 (s % 60))

/-- The form for people: a `T` between date and time, a fraction only when there is one. -/
def toText (m : Moment) : String :=
  String.ofList (m.dateChars ++ 'T' :: (m.clockChars ++
    (if m.fraction = 0 then [] else '.' :: fixedDigits 6 m.fraction)))

def storedChars (m : Moment) : List Char :=
  m.dateChars ++ ' ' :: (m.clockChars ++ '.' :: fixedDigits 6 m.fraction)

/-- The form the tables hold: a space between date and time, always six digits of fraction. -/
def toStored (m : Moment) : String := String.ofList m.storedChars

def takeDigits? (width : Nat) (cs : List Char) : Option (Nat × List Char) :=
  if (cs.take width).length = width then
    (Text.plainNat? (cs.take width)).map (·, cs.drop width)
  else none

def skip? (c : Char) : List Char → Option (List Char)
  | [] => none
  | d :: rest => if d = c then some rest else none

/-- The microseconds of a written fraction; none is written for zero. Digits beyond the sixth
do not count, and missing ones are zeros. -/
def fraction? : List Char → Option Nat
  | [] => some 0
  | '.' :: cs =>
    (Text.plainNat? cs).map fun _ => Text.digitsValue ((cs ++ List.replicate 6 '0').take 6)
  | _ => none

def read? (s : String) : Option Moment := do
  let (year, cs) ← takeDigits? 4 s.toList
  let (month, cs) ← takeDigits? 2 (← skip? '-' cs)
  let (day, cs) ← takeDigits? 2 (← skip? '-' cs)
  let (hour, cs) ← takeDigits? 2 (← skip? 'T' cs)
  let (minute, cs) ← takeDigits? 2 (← skip? ':' cs)
  let (second, cs) ← takeDigits? 2 (← skip? ':' cs)
  let micro ← fraction? cs
  let date : Date := ⟨year, month, day⟩
  if date.isValid && hour < 24 && minute < 60 && second < 60 then
    ofMicros? (date.toDays * microsPerDay +
      (hour * 3600 + minute * 60 + second) * microsPerSecond + micro : Nat)
  else none

end Moment

abbrev Span := Int

namespace Span

def dayLimit : Int := 999999999

inductive Fault where
  | tooLong
  | daysBeyond (days : Int)
  deriving DecidableEq, Repr

def ofMicros (n : Int) : Except Fault Span :=
  let days := n / (Moment.microsPerDay : Int)
  if days < -2147483648 || 2147483647 < days then .error .tooLong
  else if days < -dayLimit || dayLimit < days then .error (.daysBeyond days)
  else .ok n

end Span
end Stockroom
