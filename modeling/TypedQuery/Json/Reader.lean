import TypedQuery.Json.Document

/-!
# Reading JSON

A document may nest 127 levels deep.  A number with a point or an exponent is read by its first
digits below 2^64 and one multiplication with, or division by, a power of ten in double
precision, so it may miss the nearest double by one unit in the last place.
-/

namespace TypedQuery
namespace Json

open Number (Double Binary takeDigits ofDigits)

def isSpace (c : Char) : Bool := c == ' ' || c == '\t' || c == '\n' || c == '\r'

def skipSpace (cs : List Char) : List Char := cs.dropWhile isSpace

/-!
## Strings
-/

private def hexValue? (c : Char) : Option Nat :=
  if c.isDigit then some (c.toNat - '0'.toNat)
  else if 'a' ≤ c && c ≤ 'f' then some (c.toNat - 'a'.toNat + 10)
  else if 'A' ≤ c && c ≤ 'F' then some (c.toNat - 'A'.toNat + 10)
  else none

private def hexUnit? : List Char -> Option (Nat × List Char)
  | a :: b :: c :: d :: rest => do
      let value <- [a, b, c, d].foldlM (fun n x => (hexValue? x).map (16 * n + ·)) 0
      return (value, rest)
  | _ => none

/-- The character of an escape with four hexadecimal digits, or of a pair of them. -/
private def unicodeEscape? (cs : List Char) : Option (Char × List Char) := do
  let (unit, rest) <- hexUnit? cs
  if 0xD800 ≤ unit && unit < 0xDC00 then
    match rest with
    | '\\' :: 'u' :: more =>
        let (low, rest) <- hexUnit? more
        if 0xDC00 ≤ low && low < 0xE000 then
          return (Char.ofNat (0x10000 + (unit - 0xD800) * 0x400 + (low - 0xDC00)), rest)
        else none
    | _ => none
  else if 0xDC00 ≤ unit && unit < 0xE000 then none
  else return (Char.ofNat unit, rest)

private def simpleEscape? : Char -> Option Char
  | '"' => some '"'
  | '\\' => some '\\'
  | '/' => some '/'
  | 'b' => some (Char.ofNat 8)
  | 'f' => some (Char.ofNat 12)
  | 'n' => some '\n'
  | 'r' => some '\r'
  | 't' => some '\t'
  | _ => none

/-- The rest of a string after its opening quote; the first list is what was read, reversed. -/
def stringTail? : Nat -> List Char -> List Char -> Option (String × List Char)
  | 0, _, _ => none
  | fuel + 1, read, cs =>
      match cs with
      | '"' :: rest => some (String.ofList read.reverse, rest)
      | '\\' :: 'u' :: rest => do
          let (c, rest) <- unicodeEscape? rest
          stringTail? fuel (c :: read) rest
      | '\\' :: c :: rest => do
          let c <- simpleEscape? c
          stringTail? fuel (c :: read) rest
      | c :: rest => if c.toNat < 32 || c == '\\' then none else stringTail? fuel (c :: read) rest
      | [] => none

/-!
## Numbers
-/

private def powerOfTen (n : Nat) : Float :=
  (Double.mk (UInt64.ofNat (Binary.nearestDecimal .double 1 n))).toFloat

/-- Scales a double by a power of ten; none when the result is too large. -/
private def scaled? : Nat -> Float -> Int -> Option Float
  | 0, _, _ => none
  | fuel + 1, f, exponent =>
      if exponent.natAbs ≤ 308 then
        if exponent ≥ 0 then
          let product := f * powerOfTen exponent.natAbs
          if product.isInf then none else some product
        else some (f / powerOfTen exponent.natAbs)
      else if f == 0 then some f
      else if exponent > 0 then none
      else scaled? fuel (f / powerOfTen 308) (exponent + 308)

private def double? (negative : Bool) (significand : Nat) (exponent : Int) : Option JsonNumber := do
  let magnitude <- scaled? 16 (UInt64.ofNat significand).toFloat exponent
  return .double (Double.ofFloat (if negative then -magnitude else magnitude))

/-- Takes digits into a significand below 2^64; then how many were taken, and the others. -/
private def accumulate (significand taken : Nat) : List Char -> Nat × Nat × List Char
  | [] => (significand, taken, [])
  | c :: rest =>
      let next := 10 * significand + (c.toNat - '0'.toNat)
      if next < Number.twoPow 64 then accumulate next (taken + 1) rest
      else (significand, taken, c :: rest)

/-- Exponents beyond 32 bits make zero, or a number out of range. -/
private def exponentPart? (negative : Bool) (significand : Nat) (start : Int) (cs : List Char) :
    Option (JsonNumber × List Char) := do
  let (down, digits) :=
    match cs with
    | '-' :: rest => (true, rest)
    | '+' :: rest => (false, rest)
    | _ => (false, cs)
  let (digits, rest) := takeDigits digits
  if digits.isEmpty then none
  else
    let exponent := ofDigits digits
    if exponent ≥ Number.twoPow 31 then
      if significand != 0 && !down then none
      else return (.double (Double.ofFloat (if negative then -0.0 else 0.0)), rest)
    else
      let final := if down then start - exponent else start + exponent
      let final := max (-(Number.twoPow 31 : Int)) (min final (Number.twoPow 31 - 1))
      return (<- double? negative significand final, rest)

/-- What follows the digits of the whole part; a whole number of its own is kept whole. -/
private def afterWhole? (negative : Bool) (significand dropped : Nat) (cs : List Char) :
    Option (JsonNumber × List Char) := do
  let (significand, exponent, rest, fractional) <-
    match cs with
    | '.' :: more =>
        let (digits, rest) := takeDigits more
        if digits.isEmpty then none
        else
          let (significand, taken, _) := accumulate significand 0 digits
          some (significand, (dropped : Int) - taken, rest, true)
    | _ => some (significand, (dropped : Int), cs, false)
  match rest with
  | 'e' :: more => exponentPart? negative significand exponent more
  | 'E' :: more => exponentPart? negative significand exponent more
  | _ =>
      if fractional || dropped != 0 then return (<- double? negative significand exponent, rest)
      else if !negative then return (.integer significand, rest)
      else if significand = 0 || significand > Number.twoPow 63 then
        return (<- double? true significand 0, rest)
      else return (.integer (-(significand : Int)), rest)

private def number? (cs : List Char) : Option (JsonNumber × List Char) :=
  let (negative, cs) :=
    match cs with
    | '-' :: rest => (true, rest)
    | _ => (false, cs)
  match takeDigits cs with
  | ([], _) => none
  | ('0' :: _ :: _, _) => none
  | (digits, rest) =>
      let (significand, _, dropped) := accumulate 0 0 digits
      afterWhole? negative significand dropped.length rest

/-!
## Documents
-/

def keyword? (word : List Char) (value : Json) (cs : List Char) :
    Option (Json × List Char) :=
  if word.isPrefixOf cs then some (value, cs.drop word.length) else none

mutual

/-- One value; `depth` counts the levels that may still open. -/
def value? : Nat -> Nat -> List Char -> Option (Json × List Char)
  | 0, _, _ => none
  | fuel + 1, depth, cs =>
      match skipSpace cs with
      | '"' :: rest =>
          (stringTail? (rest.length + 1) [] rest).map fun (s, rest) => (.string s, rest)
      | '[' :: rest =>
          if depth ≤ 1 then none
          else
            match skipSpace rest with
            | ']' :: rest => some (.array [], rest)
            | rest => do
                let (items, rest) <- elements? fuel (depth - 1) rest
                return (.array items, rest)
      | '\x7b' :: rest =>
          if depth ≤ 1 then none
          else
            match skipSpace rest with
            | '\x7d' :: rest => some (.object [], rest)
            | rest => do
                let (members, rest) <- members? fuel (depth - 1) rest
                return (ofMembers members, rest)
      | 'n' :: rest => keyword? "ull".toList .null rest
      | 't' :: rest => keyword? "rue".toList (.bool true) rest
      | 'f' :: rest => keyword? "alse".toList (.bool false) rest
      | cs => (number? cs).map fun (n, rest) => (.number n, rest)

def elements? : Nat -> Nat -> List Char -> Option (List Json × List Char)
  | 0, _, _ => none
  | fuel + 1, depth, cs => do
      let (item, rest) <- value? fuel depth cs
      match skipSpace rest with
      | ',' :: rest =>
          let (items, rest) <- elements? fuel depth rest
          return (item :: items, rest)
      | ']' :: rest => return ([item], rest)
      | _ => none

def members? : Nat -> Nat -> List Char -> Option (List (String × Json) × List Char)
  | 0, _, _ => none
  | fuel + 1, depth, cs => do
      match skipSpace cs with
      | '"' :: rest =>
          let (key, rest) <- stringTail? (rest.length + 1) [] rest
          match skipSpace rest with
          | ':' :: rest =>
              let (value, rest) <- value? fuel depth rest
              match skipSpace rest with
              | ',' :: rest =>
                  let (members, rest) <- members? fuel depth rest
                  return ((key, value) :: members, rest)
              | '\x7d' :: rest => return ([(key, value)], rest)
              | _ => none
          | _ => none
      | _ => none

end

/-- The document a text holds, with nothing but blanks around it. -/
def ofText? (text : String) : Option Json :=
  let cs := text.toList
  match value? (2 * cs.length + 2) 128 cs with
  | some (value, rest) => if (skipSpace rest).isEmpty then some value else none
  | none => none

/-- The members of the object that a text holds, in the order of the text and with every
repetition. -/
def membersOfText? (text : String) : Option (List (String × Json)) :=
  let cs := text.toList
  let read : Option (List (String × Json) × List Char) :=
    match skipSpace cs with
    | '\x7b' :: rest =>
        match skipSpace rest with
        | '\x7d' :: rest => some ([], rest)
        | rest => members? (2 * cs.length + 2) 127 rest
    | _ => none
  match read with
  | some (members, rest) => if (skipSpace rest).isEmpty then some members else none
  | none => none

end Json
end TypedQuery
