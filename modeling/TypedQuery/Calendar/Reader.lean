import TypedQuery.Calendar.Timestamp
import TypedQuery.Text.Blank

/-!
# Reading dates and times

The accepted forms are those the server writes, with some freedom: blanks may stand before a
number, a number may have fewer digits than usual, and only a signed year may have more than
four.  Every reader takes a text apart from the left and passes on the rest.
-/

namespace TypedQuery
namespace Calendar

open Number (takeDigits ofDigits)

/-- A reader of a part of a text. -/
abbrev Reader (α : Type) := List Char -> Option (α × List Char)

namespace Reader

/-- At least one and at most `width` digits. -/
def number (width : Nat) : Reader Nat := fun cs =>
  let digits := (takeDigits (cs.take width)).1
  if digits.isEmpty then none else some (ofDigits digits, cs.drop digits.length)

def wholeNumber : Reader Nat := fun cs => number cs.length cs

/-- A number of at most two digits between two bounds, after blanks. -/
def field (low high : Nat) : Reader Nat := fun cs => do
  let (n, rest) <- number 2 (Text.trimStart cs)
  if low ≤ n && n ≤ high then some (n, rest) else none

def literal (c : Char) : Reader Unit
  | d :: rest => if c == d then some ((), rest) else none
  | [] => none

def year : Reader Int := fun cs =>
  match Text.trimStart cs with
  | '-' :: rest => (wholeNumber rest).map fun (n, rest) => (-(n : Int), rest)
  | '+' :: rest => (wholeNumber rest).map fun (n, rest) => ((n : Int), rest)
  | cs => (number 4 cs).map fun (n, rest) => ((n : Int), rest)

def date : Reader Date := fun cs => do
  let (y, cs) <- year cs
  let (_, cs) <- literal '-' cs
  let (m, cs) <- field 1 12 cs
  let (_, cs) <- literal '-' cs
  let (d, cs) <- field 1 31 cs
  let date <- Date.ofYmd? y m d
  return (date, cs)

/-- An optional fraction of a second in nanoseconds; digits after the ninth are skipped. -/
def fraction : Reader Nat
  | '.' :: rest => do
      let (digits, tail) := takeDigits rest
      if digits.isEmpty then none
      else
        let kept := digits.take 9
        return (ofDigits kept * Number.tenPow (9 - kept.length), tail)
  | cs => some (0, cs)

/-- Second 60 is the leap second after second 59. -/
def time : Reader TimeOfDay := fun cs => do
  let (h, cs) <- field 0 23 cs
  let (_, cs) <- literal ':' cs
  let (m, cs) <- field 0 59 cs
  let (_, cs) <- literal ':' cs
  let (s, cs) <- field 0 60 cs
  let (nanos, cs) <- fraction cs
  let time <-
    if s = 60 then TimeOfDay.ofHms? h m 59 (1000000000 + nanos) else TimeOfDay.ofHms? h m s nanos
  return (time, cs)

def timestamp : Reader Timestamp := fun cs => do
  let (d, cs) <- date cs
  let (t, cs) <- time (Text.trimStart cs)
  return (⟨d, t⟩, cs)

def isSeparator (c : Char) : Bool := c == ':' || Text.isBlank c

/-- The minutes of a zone offset, which may be missing. -/
def offsetMinutes : Reader Nat
  | [] => some (0, [])
  | a :: b :: rest =>
      if a.isDigit && b.isDigit && a.toNat < '6'.toNat then some (ofDigits [a, b], rest) else none
  | _ => none

/-- A zone offset in seconds: a letter Z, or a sign, two digits of hours and maybe minutes. -/
def zoneOffset : Reader Int := fun cs =>
  match Text.trimStart cs with
  | 'Z' :: rest => some (0, rest)
  | 'z' :: rest => some (0, rest)
  | sign :: a :: b :: rest => do
      let negative <-
        if sign == '+' then some false
        else if sign == '-' || sign == '\u2212' then some true
        else none
      if !(a.isDigit && b.isDigit) then none
      else
        let (minutes, rest) <- offsetMinutes (rest.dropWhile isSeparator)
        let seconds : Int := ofDigits [a, b] * 3600 + minutes * 60
        return (if negative then -seconds else seconds, rest)
  | _ => none

def whole {α : Type} (reader : Reader α) (text : String) : Option α :=
  match reader text.toList with
  | some (value, []) => some value
  | _ => none

def zoned : Reader (Timestamp × Int) := fun cs => do
  let (t, cs) <- timestamp cs
  let (offset, cs) <- zoneOffset cs
  return ((t, offset), cs)

end Reader

def Date.ofText? (text : String) : Option Date := Reader.whole Reader.date text

def TimeOfDay.ofText? (text : String) : Option TimeOfDay := Reader.whole Reader.time text

def Timestamp.ofText? (text : String) : Option Timestamp := Reader.whole Reader.timestamp text

/-- A timestamp with a zone offset, moved to zone zero. -/
def Timestamp.ofZonedText? (text : String) : Option Timestamp := do
  let (wallClock, offset) <- Reader.whole Reader.zoned text
  if -86400 < offset && offset < 86400 then wallClock.addSeconds? (-offset) else none

/-- A timestamp whose zone offset, if it has a plus sign, is read and left out of account. -/
def Timestamp.ofUtcText? (text : String) : Option Timestamp :=
  if text.toList.contains '+' then (Reader.whole Reader.zoned text).map (·.1)
  else Timestamp.ofText? text

end Calendar
end TypedQuery
