import TypedQuery.Calendar.Date

/-!
# Times of day and timestamps

A time of day counts seconds from midnight and nanoseconds.  A nanosecond count from 10^9 up
marks a leap second: it is written as second 60.
-/

namespace TypedQuery
namespace Calendar

/-- A time of day, with room for a leap second. -/
structure TimeOfDay where
  seconds : Nat
  nanos : Nat
  seconds_lt : seconds < 86400 := by decide
  nanos_lt : nanos < 2000000000 := by decide
deriving DecidableEq

namespace TimeOfDay

def midnight : TimeOfDay := { seconds := 0, nanos := 0 }

instance : Inhabited TimeOfDay := ⟨midnight⟩

def ofParts? (seconds nanos : Nat) : Option TimeOfDay :=
  if h : seconds < 86400 ∧ nanos < 2000000000 then some ⟨seconds, nanos, h.1, h.2⟩ else none

/-- A leap second can only follow second 59. -/
def ofHms? (hour minute second nanos : Nat) : Option TimeOfDay :=
  if hour < 24 && minute < 60 && second < 60 && (nanos < 1000000000 || second == 59) then
    ofParts? (hour * 3600 + minute * 60 + second) nanos
  else none

def hour (t : TimeOfDay) : Nat := t.seconds / 3600

def minute (t : TimeOfDay) : Nat := t.seconds / 60 % 60

def second (t : TimeOfDay) : Nat := t.seconds % 60

/-- The time so many microseconds after midnight, going round the day. -/
def ofMicroseconds (micros : Int) : TimeOfDay :=
  let inDay := (micros.fmod 86400000000).toNat
  (ofParts? (inDay / 1000000) (inDay % 1000000 * 1000)).getD midnight

/-- Microseconds from midnight; a leap second counts on. -/
def toMicroseconds (t : TimeOfDay) : Nat := t.seconds * 1000000 + t.nanos / 1000

/-- A fraction in three, six or nine digits, as few as it needs. -/
private def fractionText (nanos : Nat) : String :=
  if nanos = 0 then ""
  else if nanos % 1000000 = 0 then "." ++ Number.padded 3 (nanos / 1000000)
  else if nanos % 1000 = 0 then "." ++ Number.padded 6 (nanos / 1000)
  else "." ++ Number.padded 9 nanos

def toText (t : TimeOfDay) : String :=
  Number.padded 2 t.hour ++ ":" ++ Number.padded 2 t.minute ++ ":" ++
    Number.padded 2 (t.second + t.nanos / 1000000000) ++ fractionText (t.nanos % 1000000000)

end TimeOfDay

structure Timestamp where
  date : Date
  time : TimeOfDay
deriving DecidableEq, Inhabited

namespace Timestamp

def toText (t : Timestamp) : String := t.date.toText ++ " " ++ t.time.toText

/-- The timestamp so many microseconds after the start of 2000, if its date exists. -/
def ofMicroseconds? (micros : Int) : Option Timestamp :=
  (Date.ofDayNumber? (micros.fdiv 86400000000)).map fun date =>
    ⟨date, TimeOfDay.ofMicroseconds micros⟩

/-- Microseconds from the start of 2000, cut off toward it. -/
def toMicroseconds (t : Timestamp) : Int :=
  let nanoseconds : Int :=
    (t.date.toDayNumber * 86400 + t.time.seconds) * 1000000000 + t.time.nanos
  nanoseconds.tdiv 1000

/-- Moves a timestamp by whole seconds; a leap second stays one. -/
def addSeconds? (t : Timestamp) (seconds : Int) : Option Timestamp := do
  let total := t.date.toDayNumber * 86400 + t.time.seconds + seconds
  let date <- Date.ofDayNumber? (total.fdiv 86400)
  let time <- TimeOfDay.ofParts? (total.fmod 86400).toNat t.time.nanos
  return ⟨date, time⟩

end Timestamp

end Calendar
end TypedQuery
