import TypedQuery.Number.Rounding

/-!
# Durations

Durations count nanoseconds.  Their text takes the greatest unit that they reach, with the
fraction it leaves.
-/

namespace TypedQuery

structure Duration where
  nanoseconds : Nat
deriving DecidableEq

namespace Duration

def ofMicroseconds (n : Nat) : Duration := ⟨n * 1000⟩

def ofMilliseconds (n : Nat) : Duration := ⟨n * 1000000⟩

def ofSeconds (n : Nat) : Duration := ⟨n * 1000000000⟩

def milliseconds (d : Duration) : Nat := d.nanoseconds / 1000000

/-- A number of units of `10 ^ digits` nanoseconds; zeros at the end of the fraction are left
out. -/
private def inUnit (d : Duration) (digits : Nat) (unit : String) : String :=
  let fraction := (Number.padded digits (d.nanoseconds % Number.tenPow digits)).toList
  let kept := (fraction.reverse.dropWhile (· == '0')).reverse
  toString (d.nanoseconds / Number.tenPow digits) ++
    (if digits = 0 || kept.isEmpty then "" else "." ++ String.ofList kept) ++ unit

def toText (d : Duration) : String :=
  if d.nanoseconds ≥ Number.tenPow 9 then d.inUnit 9 "s"
  else if d.nanoseconds ≥ Number.tenPow 6 then d.inUnit 6 "ms"
  else if d.nanoseconds ≥ Number.tenPow 3 then d.inUnit 3 "µs"
  else d.inUnit 0 "ns"

end Duration

end TypedQuery
