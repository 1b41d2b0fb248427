import TypedQuery.Number.Binary

/-!
# The fewest digits that read back

A finite binary number is written with the fewest decimal digits that no other number of its
format is nearer to, and of those digits the ones nearest to it.  A layout says which exponents
are written positionally and which way an exact tie goes.
-/

namespace TypedQuery
namespace Number

structure Digits where
  digits : Nat
  exponent : Int
deriving DecidableEq

namespace Digits

/-- Moves trailing zeros from the digits into the exponent. -/
private def dropZeros : Nat -> Digits -> Digits
  | 0, d => d
  | fuel + 1, d =>
      if d.digits ≠ 0 ∧ d.digits % 10 = 0 then dropZeros fuel ⟨d.digits / 10, d.exponent + 1⟩ else d

def normalize (d : Digits) : Digits := dropZeros (toString d.digits).length d

end Digits

/-- A finite nonzero binary number on the decimal grid: the number, the ends of the interval of
reals that round to it, all times four and over the same power of ten. -/
structure Neighbourhood where
  value : Nat
  low : Nat
  high : Nat
  closed : Bool
  exponent : Int

namespace Neighbourhood

def ofBinary (f : BinaryFormat) (mantissa : Nat) (power : Int) : Neighbourhood :=
  let unit := if power < 0 then Nat.pow 5 (-power).toNat else twoPow power.toNat
  let gapBelow := if mantissa = twoPow f.fractionBits ∧ f.minPower < power then 1 else 2
  { value := 4 * mantissa * unit
    low := (4 * mantissa - gapBelow) * unit
    high := (4 * mantissa + 2) * unit
    closed := mantissa % 2 == 0
    exponent := if power < 0 then power else 0 }

/-- Whether a point, times four, rounds to the number. -/
def contains (n : Neighbourhood) (point : Nat) : Bool :=
  if n.closed then n.low ≤ point && point ≤ n.high else n.low < point && point < n.high

/-- The point of the grid `10 ^ dropped` that rounds to the number and is nearest to it. -/
def onGrid? (n : Neighbourhood) (tieUp : Bool) (dropped : Nat) : Option Digits :=
  let step := 4 * tenPow dropped
  let below := n.value / step
  let above := below + 1
  let toBelow := n.value - below * step
  let toAbove := above * step - n.value
  let answer (digits : Nat) : Option Digits := some ⟨digits, n.exponent + dropped⟩
  match n.contains (below * step), n.contains (above * step) with
  | false, false => none
  | true, false => answer below
  | false, true => answer above
  | true, true =>
      if toBelow < toAbove then answer below
      else if toAbove < toBelow then answer above
      else if tieUp then answer above
      else answer (if below % 2 = 0 then below else above)

/-- Tries grids from the coarsest of `dropped` digits to the exact value. -/
def search (n : Neighbourhood) (tieUp : Bool) : Nat -> Digits
  | 0 => ⟨n.value / 4, n.exponent⟩
  | dropped + 1 =>
      match n.onGrid? tieUp (dropped + 1) with
      | some d => d
      | none => n.search tieUp dropped

end Neighbourhood

/-- The shortest digits of a finite nonzero number. -/
def shortest (f : BinaryFormat) (tieUp : Bool) (mantissa : Nat) (power : Int) : Digits :=
  let n := Neighbourhood.ofBinary f mantissa power
  (n.search tieUp (toString (n.value / 4)).length).normalize

/-!
## Layouts
-/

/-- How shortest digits are written. -/
structure FloatLayout where
  /-- The least exponent written positionally. -/
  leastPositional : Int
  /-- The greatest exponent written positionally. -/
  greatestPositional : Int
  /-- Whether an exact tie between two shortest forms goes up. -/
  tieUp : Bool
  /-- What stands before the digits of an exponent that is not negative. -/
  plus : String

namespace FloatLayout

/-- Doubles inside SQL literals: positional from 10^-4 to below 10^16. -/
def sqlLiteral : FloatLayout := ⟨-4, 15, true, ""⟩

/-- Doubles inside JSON documents: positional from 10^-5 to below 10^16. -/
def json : FloatLayout := ⟨-5, 15, false, "+"⟩

private def zeros (n : Nat) : String := String.ofList (List.replicate n '0')

def digitsText (layout : FloatLayout) (d : Digits) : String :=
  let text := toString d.digits
  let exponent := d.exponent + text.length - 1
  if layout.leastPositional ≤ exponent ∧ exponent ≤ layout.greatestPositional then
    if exponent < 0 then "0." ++ zeros (-exponent - 1).toNat ++ text
    else
      let whole := exponent.toNat + 1
      if text.length ≤ whole then text ++ zeros (whole - text.length) ++ ".0"
      else String.ofList (text.toList.take whole) ++ "." ++ String.ofList (text.toList.drop whole)
  else
    let head := String.ofList (text.toList.take 1)
    let tail := String.ofList (text.toList.drop 1)
    (if tail.isEmpty then head else head ++ "." ++ tail) ++ "e" ++
      (if exponent < 0 then "" else layout.plus) ++ toString exponent

def finiteText (layout : FloatLayout) (f : BinaryFormat) (negative : Bool) (mantissa : Nat)
    (power : Int) : String :=
  let body :=
    if mantissa = 0 then "0.0" else layout.digitsText (shortest f layout.tieUp mantissa power)
  if negative then "-" ++ body else body

/-- Writes a double, with words for infinities and not-a-number. -/
def doubleText (layout : FloatLayout) (d : Double) : String :=
  match d.decode with
  | .nan => "NaN"
  | .infinite false => "Infinity"
  | .infinite true => "-Infinity"
  | .finite negative mantissa power => layout.finiteText .double negative mantissa power

end FloatLayout

end Number
end TypedQuery
