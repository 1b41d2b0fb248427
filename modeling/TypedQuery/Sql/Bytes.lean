import TypedQuery.Sql.Value

/-!
# Bytes in hexadecimal

Bytes are written as pairs of lowercase hexadecimal digits and read in either case.
-/

namespace TypedQuery

namespace Hex

private def digit (n : Nat) : Char := ("0123456789abcdef".toList[n % 16]?).getD '0'

def digitValue? (c : Char) : Option Nat :=
  if c.isDigit then some (c.toNat - '0'.toNat)
  else if 'a' ≤ c && c ≤ 'f' then some (c.toNat - 'a'.toNat + 10)
  else if 'A' ≤ c && c ≤ 'F' then some (c.toNat - 'A'.toNat + 10)
  else none

def ofByte (b : UInt8) : List Char := [digit (b.toNat / 16), digit b.toNat]

def encode (bytes : List UInt8) : List Char := bytes.flatMap ofByte

def decode? : List Char -> Option (List UInt8)
  | [] => some []
  | [_] => none
  | a :: b :: rest => do
      let high <- digitValue? a
      let low <- digitValue? b
      let bytes <- decode? rest
      return UInt8.ofNat (16 * high + low) :: bytes

end Hex

namespace Uuid

/-- Five groups of digits joined by hyphens. -/
def toText (u : Uuid) : String :=
  let digits := Hex.encode u.bytes
  let group (start count : Nat) : String := String.ofList ((digits.drop start).take count)
  group 0 8 ++ "-" ++ group 8 4 ++ "-" ++ group 12 4 ++ "-" ++ group 16 4 ++ "-" ++ group 20 12

/-- Whether hyphens stand exactly between the five groups. -/
private def isGrouped (cs : List Char) : Bool :=
  cs.length == 36 &&
    (cs.zipIdx.all fun (c, i) => (c == '-') == (i == 8 || i == 13 || i == 18 || i == 23))

/-- Text between braces. -/
private def inBraces? (cs : List Char) : Option (List Char) :=
  match cs with
  | '\x7b' :: rest => if rest.getLast? == some '\x7d' then some rest.dropLast else none
  | _ => none

/-- Reads 32 digits, or five groups of them, which may stand between braces or after `urn:uuid:`. -/
def ofText? (text : String) : Option Uuid :=
  let cs := text.toList
  let grouped (cs : List Char) : Option Uuid :=
    if isGrouped cs then (Hex.decode? (cs.filter (· != '-'))).bind ofBytes? else none
  if cs.length = 32 then (Hex.decode? cs).bind ofBytes?
  else
    match inBraces? cs with
    | some inner => grouped inner
    | none => grouped (if "urn:uuid:".toList.isPrefixOf cs then cs.drop 9 else cs)

end Uuid

end TypedQuery
