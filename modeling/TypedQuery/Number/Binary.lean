import TypedQuery.Number.Rounding

/-!
# Binary floating point numbers by their bits

A floating point number is kept as its bits, so that equality is equality of bits and a payload
is never lost.  Finite numbers decode to an integer times a power of two; the nearest number to a
quotient is found in exact integer arithmetic.
-/

namespace TypedQuery
namespace Number

/-- The widths of the stored fraction and of the exponent. -/
structure BinaryFormat where
  fractionBits : Nat
  exponentBits : Nat

namespace BinaryFormat

def single : BinaryFormat := ⟨23, 8⟩

def double : BinaryFormat := ⟨52, 11⟩

/-- The power of two that multiplies the fraction of the smallest numbers. -/
def minPower (f : BinaryFormat) : Int := 2 - (twoPow (f.exponentBits - 1) : Int) - f.fractionBits

def infinityBits (f : BinaryFormat) : Nat := (twoPow f.exponentBits - 1) * twoPow f.fractionBits

def signBit (f : BinaryFormat) : Nat := twoPow (f.exponentBits + f.fractionBits)

end BinaryFormat

/-- What the bits of a floating point number stand for. -/
inductive Binary where
  | nan
  | infinite (negative : Bool)
  | finite (negative : Bool) (mantissa : Nat) (power : Int)
deriving DecidableEq

namespace Binary

def ofBits (f : BinaryFormat) (bits : Nat) : Binary :=
  let negative := bits / f.signBit % 2 == 1
  let magnitude := bits % f.signBit
  if magnitude > f.infinityBits then nan
  else if magnitude = f.infinityBits then infinite negative
  else
    let exponent := magnitude / twoPow f.fractionBits
    let fraction := magnitude % twoPow f.fractionBits
    if exponent = 0 then finite negative fraction f.minPower
    else finite negative (twoPow f.fractionBits + fraction) (f.minPower + (exponent - 1))

/-- The bits of the number nearest to `num / den`, a half going to the even neighbour. -/
def nearestBits (f : BinaryFormat) (num den : Nat) : Nat :=
  if num = 0 then 0
  else
    let guess := max f.minPower ((num.log2 : Int) - den.log2 - f.fractionBits - 1)
    let scaled (power : Int) : Nat × Nat := (num * twoPow (-power).toNat, den * twoPow power.toNat)
    let (n, d) := scaled guess
    let power := if n / d < twoPow (f.fractionBits + 1) then guess else guess + 1
    let (n, d) := scaled power
    let bits := (power - f.minPower).toNat * twoPow f.fractionBits + divHalfEven n d
    if bits < f.infinityBits then bits else f.infinityBits

/-- The bits of the number nearest to `digits * 10 ^ exponent`. -/
def nearestDecimal (f : BinaryFormat) (digits : Nat) (exponent : Int) : Nat :=
  let magnitude := (toString digits).length + exponent
  if digits = 0 ∨ magnitude < -400 then 0
  else if magnitude > 400 then f.infinityBits
  else nearestBits f (digits * tenPow exponent.toNat) (tenPow (-exponent).toNat)

end Binary

/-!
## Reading

The grammar is an optional sign, then a word for infinity or not-a-number in any case, or
digits with an optional point and an optional exponent.
-/

private def lower (c : Char) : Char := c.toLower

/-- An optional sign: whether it is a minus, and what follows it. -/
def takeSign : List Char -> Bool × List Char
  | '-' :: rest => (true, rest)
  | '+' :: rest => (false, rest)
  | cs => (false, cs)

private def readExponent? : List Char -> Option Int
  | [] => some 0
  | c :: rest =>
      if lower c == 'e' then
        let (negative, digits) := takeSign rest
        (readNat? digits).map fun n => if negative then -(n : Int) else n
      else none

/-- Digits with an optional point: the digits as one number and its exponent. -/
private def readDigits? (cs : List Char) : Option (Nat × Int) :=
  let (whole, rest) := takeDigits cs
  let (fraction, rest) :=
    match rest with
    | '.' :: more => takeDigits more
    | _ => ([], rest)
  if whole.isEmpty && fraction.isEmpty then none
  else do
    let exponent <- readExponent? rest
    return (ofDigits (whole ++ fraction), exponent - fraction.length)

/-- The bits of the floating point number a text denotes. -/
def readBinary? (f : BinaryFormat) (text : String) : Option Nat :=
  let (negative, body) := takeSign text.toList
  let magnitude : Option Nat :=
    match String.ofList (body.map lower) with
    | "inf" | "infinity" => some f.infinityBits
    | "nan" => some (f.infinityBits + twoPow (f.fractionBits - 1))
    | _ => (readDigits? body).map fun (digits, exponent) => Binary.nearestDecimal f digits exponent
  magnitude.map fun bits => if negative then f.signBit + bits else bits

/-!
## Single and double precision
-/

structure Single where
  bits : UInt32
deriving DecidableEq, Inhabited

structure Double where
  bits : UInt64
deriving DecidableEq, Inhabited

namespace Double

def toFloat (d : Double) : Float := Float.ofBits d.bits

def ofFloat (x : Float) : Double := ⟨x.toBits⟩

def decode (d : Double) : Binary := Binary.ofBits .double d.bits.toNat

def isNaN (d : Double) : Bool := d.decode == .nan

def isFinite (d : Double) : Bool :=
  match d.decode with
  | .finite .. => true
  | _ => false

def ofText? (text : String) : Option Double :=
  (readBinary? .double text).map fun bits => ⟨UInt64.ofNat bits⟩

end Double

namespace Single

/-- The double precision number with the same value. -/
def widen (s : Single) : Double := Double.ofFloat (Float32.ofBits s.bits).toFloat

def decode (s : Single) : Binary := Binary.ofBits .single s.bits.toNat

def ofText? (text : String) : Option Single :=
  (readBinary? .single text).map fun bits => ⟨UInt32.ofNat bits⟩

end Single

end Number
end TypedQuery
