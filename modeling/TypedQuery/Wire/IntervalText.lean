import TypedQuery.Error
import TypedQuery.Sql.Value
import TypedQuery.Text.Blank

/-!
# Intervals as the server writes them

An interval is a list of amounts with their units, and of clock times with an optional sign, in
any order; everything is added up.
-/

namespace TypedQuery

namespace Number

/-- Reads an optional sign and digits, between two bounds. -/
def readInt? (low high : Int) (cs : List Char) : Option Int := do
  let (negative, digits) := takeSign cs
  let magnitude <- readNat? digits
  let n : Int := if negative then -(magnitude : Int) else magnitude
  if low ≤ n && n ≤ high then some n else none

def readInt32? (cs : List Char) : Option Int :=
  readInt? (-Number.twoPow 31) (Number.twoPow 31 - 1) cs

def readInt64? (cs : List Char) : Option Int :=
  readInt? (-Number.twoPow 63) (Number.twoPow 63 - 1) cs

end Number

namespace Wire

/-- What a reader gives, or the fault that the text is no such thing. -/
def parsed {α : Type} (kind : String) (text : List Char) (reader : List Char -> Option α) :
    Result α :=
  match reader text with
  | some value => .ok value
  | none => .error (.conversion (.malformedText kind (String.ofList text)))

namespace IntervalText

/-- Splits a text at the first of a character. -/
def splitAt (c : Char) (cs : List Char) : List Char × Option (List Char) :=
  match cs.dropWhile (· != c) with
  | _ :: rest => (cs.takeWhile (· != c), some rest)
  | [] => (cs, none)

/-- As many characters from the front as have at most so many bytes together. -/
def takeSize (bytes : Nat) : List Char -> List Char
  | [] => []
  | c :: rest => if c.utf8Size ≤ bytes then c :: takeSize (bytes - c.utf8Size) rest else []

/-- The microseconds of a fraction of a second; digits after the sixth are left out. -/
def fractionMicros (fraction : List Char) : Result Int :=
  if fraction.isEmpty then .ok 0
  else
    let padded := fraction ++ List.replicate (6 - fraction.length) '0'
    parsed "interval fraction" (takeSize 6 padded) Number.readInt64?

/-- The microseconds of a clock time: hours, minutes and maybe seconds. -/
def clockMicros (token : List Char) : Result Int := do
  let (negative, clock) := Number.takeSign token
  let (hours, rest) := splitAt ':' clock
  let (minutes, rest) := splitAt ':' (rest.getD [])
  let (whole, fraction) := splitAt '.' (rest.getD ['0'])
  let hours <- parsed "interval hours" hours Number.readInt64?
  let minutes <- parsed "interval minutes" minutes Number.readInt64?
  let whole <- parsed "interval seconds" whole Number.readInt64?
  let fraction <- fractionMicros (fraction.getD [])
  let total := ((hours * 60 + minutes) * 60 + whole) * 1000000 + fraction
  return if negative then -total else total

/-- Months, days and microseconds. -/
structure Sum where
  months : Int := 0
  days : Int := 0
  micros : Int := 0

/-- Adds up the parts of an interval; `text` is the whole of it. -/
def addUp (text : List Char) (sum : Sum) : List (List Char) -> Result Sum
  | [] => .ok sum
  | token :: rest =>
      if token.contains ':' then do
        let micros <- clockMicros token
        addUp text { sum with micros := sum.micros + micros } rest
      else do
        let amount <- parsed "interval" token Number.readInt32?
        match rest with
        | [] => .error (.conversion (.malformedText "interval" (String.ofList text)))
        | unit :: rest =>
            match String.ofList unit with
            | "year" | "years" => addUp text { sum with months := sum.months + amount * 12 } rest
            | "mon" | "mons" => addUp text { sum with months := sum.months + amount } rest
            | "day" | "days" => addUp text { sum with days := sum.days + amount } rest
            | _ => .error (.conversion (.malformedText "interval" (String.ofList text)))

end IntervalText

/-- Reads an interval such as `1 year 2 mons -3 days +04:05:06.5`. -/
def readInterval (text : List Char) : Result Interval := do
  let sum <- IntervalText.addUp text {} (Text.words text)
  return ⟨.ofInt sum.months, .ofInt sum.days, .ofInt sum.micros⟩

end Wire
end TypedQuery
