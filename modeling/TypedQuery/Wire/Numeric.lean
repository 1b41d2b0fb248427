import TypedQuery.Error
import TypedQuery.Number.BigEndian
import TypedQuery.Number.Decimal

/-!
# Numbers in groups of four digits

The server sends a decimal as groups of four digits: the number of groups, the power of 10000
that the first one counts, the sign, the number of fractional digits, and the groups.  Groups
that are left out are zero.
-/

namespace TypedQuery
namespace Wire

open Number (BigEndian.toNat BigEndian.toInt BigEndian.ofNat BigEndian.ofInt padded Decimal)

/-- A decimal in groups of four digits. -/
structure DigitGroups where
  groups : List Nat
  weight : Int
  sign : Nat
  scale : Nat

namespace DigitGroups

/-- The two-byte words of a value; an odd byte at the end does not count. -/
def words : List UInt8 -> List Nat
  | a :: b :: rest => BigEndian.toNat [a, b] :: words rest
  | _ => []

def negativeSign : Nat := 0x4000

def nanSign : Nat := 0xC000

def read (bytes : List UInt8) : Result DigitGroups :=
  match words bytes with
  | count :: weight :: sign :: scale :: groups =>
      if sign = nanSign then .error (.conversion .numericNaN)
      else .ok ⟨groups.take count, Int.bmod weight 65536, sign, scale⟩
  | _ => .error (.conversion .truncatedNumeric)

/-- The group at a position, where the first one has position zero. -/
def group (d : DigitGroups) (position : Int) : Nat :=
  if position < 0 then 0 else (d.groups[position.toNat]?).getD 0

def digits (d : DigitGroups) (position : Int) : Nat -> String
  | 0 => ""
  | count + 1 => padded 4 (d.group position) ++ d.digits (position + 1) count

def whole (d : DigitGroups) : String :=
  if d.weight < 0 then "0" else toString (d.group 0) ++ d.digits 1 d.weight.toNat

def fraction (d : DigitGroups) : String :=
  String.ofList ((d.digits (d.weight + 1) ((d.scale + 3) / 4)).toList.take d.scale)

def toText (d : DigitGroups) : String :=
  (if d.sign = negativeSign then "-" else "") ++ d.whole ++
    (if d.scale = 0 then "" else "." ++ d.fraction)

/-- The decimal that the groups write, if it fits. -/
def toDecimal? (d : DigitGroups) : Option Decimal := Decimal.ofText? d.toText

/-- A sum and the groups after it, the first of which counts the given power of 10000. -/
def total? (sum : Decimal) (weight : Int) : List Nat -> Option Decimal
  | [] => some sum
  | group :: rest => do
      let power <- Decimal.powerOfGroup? weight
      let part <- (Decimal.ofInt64 (.ofNat group)).mul? power
      total? (<- sum.add? part) (weight - 1) rest

/-- The decimal that the groups sum up to, with the scale that they state; without groups it is
the plain zero. -/
def sum? (d : DigitGroups) : Option Decimal := do
  if d.sign ≠ 0 ∧ d.sign ≠ negativeSign then none
  else if d.groups.isEmpty then return Decimal.zero
  else
    let magnitude <- total? .zero d.weight d.groups
    return (if d.sign = negativeSign then magnitude.neg else magnitude).withScale d.scale

/-!
## Writing
-/

/-- The groups of a number, the least significant first. -/
def split : Nat -> Nat -> List Nat
  | 0, _ => []
  | fuel + 1, n => if n = 0 then [] else n % 10000 :: split fuel (n / 10000)

/-- The groups of a decimal, without zero groups at the end. -/
def ofDecimal (d : Decimal) : DigitGroups :=
  if d.isZero then ⟨[], 0, 0, 0⟩
  else
    let after := (d.scale + 3) / 4
    let groups := split 10 (d.unscaled.natAbs * Number.tenPow (4 * after - d.scale))
    { groups := (groups.dropWhile (· == 0)).reverse, weight := (groups.length : Int) - after - 1
      sign := if d.unscaled < 0 then negativeSign else 0, scale := d.scale }

def write (d : DigitGroups) : List UInt8 :=
  BigEndian.ofNat 2 d.groups.length ++ BigEndian.ofInt 2 d.weight ++
    BigEndian.ofNat 2 d.sign ++ BigEndian.ofNat 2 d.scale ++
    d.groups.flatMap (BigEndian.ofNat 2)

end DigitGroups

end Wire
end TypedQuery
