import TypedQuery.Calendar.Reader
import TypedQuery.Json.Reader
import TypedQuery.Sql.Bytes
import TypedQuery.Wire.IntervalText
import TypedQuery.Wire.Numeric
import TypedQuery.Wire.Oid

/-!
# Array elements

An element of an array is read by the type of the elements, from text or from bytes.  Types that
are not built in have the text of their label.
-/

namespace TypedQuery
namespace Wire

open Number (BigEndian.toNat BigEndian.toInt)

/-- The text of bytes, if they are UTF-8. -/
def utf8? (bytes : List UInt8) : Option String := String.fromUTF8? (ByteArray.mk bytes.toArray)

/-- What a general reader gives, or the fault that it cannot read. -/
def readable {α : Type} (value : Option α) : Result α :=
  match value with
  | some value => .ok value
  | none => .error (.conversion .unreadable)

def jsonOfBytes? (bytes : List UInt8) : Option Json := (utf8? bytes).bind Json.ofText?

/-!
## Text
-/

namespace HexText

/-- The byte of two digits; the first one may be a plus sign. -/
def byte? (a b : Char) : Option UInt8 := do
  let high <- if a = '+' then some 0 else Hex.digitValue? a
  return UInt8.ofNat (16 * high + (<- Hex.digitValue? b))

def digits? : List Char -> Option (List UInt8)
  | [] => some []
  | [_] => none
  | a :: b :: rest => do return (<- byte? a b) :: (<- digits? rest)

/-- Reads bytes written as `\x` and pairs of digits. -/
def read (text : String) : Result (List UInt8) :=
  match text.toList with
  | '\\' :: 'x' :: digits =>
      match digits? digits with
      | some bytes => .ok bytes
      | none => .error (.conversion (.hexDigits text))
  | _ => .error (.conversion .hexForm)

end HexText

def textElement (element : Oid) (text : String) : Result Value :=
  let malformed {α : Type} (kind : String) (value : Option α) (make : α -> Value) : Result Value :=
    match value with
    | some value => .ok (make value)
    | none => .error (.conversion (.malformedText kind text))
  if element = Oid.bool then .ok (.bool (text == "t" || text == "true"))
  else if element = Oid.int2 ∨ element = Oid.int4 then
    malformed "integer" (Number.readInt32? text.toList) fun n => .int (.ofInt n)
  else if element = Oid.int8 then
    malformed "bigint" (Number.readInt64? text.toList) fun n => .bigint (.ofInt n)
  else if element = Oid.float4 then malformed "real" (Number.Single.ofText? text) .float
  else if element = Oid.float8 then
    malformed "double precision" (Number.Double.ofText? text) .double
  else if element = Oid.numeric then malformed "numeric" (Number.Decimal.ofText? text) .decimal
  else if element = Oid.uuid then malformed "uuid" (Uuid.ofText? text) .uuid
  else if element = Oid.bytea then return .bytes (<- HexText.read text)
  else if element = Oid.date then return .date (<- readable (Calendar.Date.ofText? text))
  else if element = Oid.time then return .time (<- readable (Calendar.TimeOfDay.ofText? text))
  else if element = Oid.timestamp then
    return .timestamp (<- readable (Calendar.Timestamp.ofText? text))
  else if element = Oid.timestamptz then
    return .timestamp (<- readable (Calendar.Timestamp.ofZonedText? text))
  else if element = Oid.interval then return .interval (<- readInterval text.toList)
  else if element = Oid.json ∨ element = Oid.jsonb then
    return .json (<- readable (Json.ofText? text))
  else return .text text

/-!
## Bytes
-/

def takeBytes (count : Nat) (bytes : List UInt8) : Result (List UInt8 × List UInt8) :=
  if bytes.length < count then .error (.conversion (.array .truncated))
  else .ok (bytes.take count, bytes.drop count)

def takeInt32 (bytes : List UInt8) : Result (Int × List UInt8) := do
  let (head, rest) <- takeBytes 4 bytes
  return (BigEndian.toInt head, rest)

/-- Bytes of which there must be just so many. -/
def exactly (count : Nat) (bytes : List UInt8) : Result (List UInt8) :=
  if bytes.length = count then .ok bytes
  else .error (.conversion (.byteCount count bytes.length))

def intervalOfBytes (bytes : List UInt8) : Result Interval := do
  let (micros, rest) <- takeBytes 8 bytes
  let (days, rest) <- takeInt32 rest
  let (months, _) <- takeInt32 rest
  return ⟨.ofInt months, .ofInt days, .ofInt (BigEndian.toInt micros)⟩

/-- A document after the number of its version. -/
def jsonbOfBytes (bytes : List UInt8) : Result Json :=
  match bytes with
  | 1 :: document => readable (jsonOfBytes? document)
  | _ => .error (.conversion .jsonbVersion)

/-- A decimal in groups of digits. -/
def decimalOfBytes (bytes : List UInt8) : Result Number.Decimal := do
  readable (<- DigitGroups.read bytes).toDecimal?

def binaryElement (element : Oid) (bytes : List UInt8) : Result Value := do
  if element = Oid.bool then return .bool ((<- exactly 1 bytes) != [0])
  else if element = Oid.int2 then return .int (.ofInt (BigEndian.toInt (<- exactly 2 bytes)))
  else if element = Oid.int4 then return .int (.ofInt (BigEndian.toInt (<- exactly 4 bytes)))
  else if element = Oid.int8 then return .bigint (.ofInt (BigEndian.toInt (<- exactly 8 bytes)))
  else if element = Oid.float4 then
    return .float ⟨.ofNat (BigEndian.toNat (<- exactly 4 bytes))⟩
  else if element = Oid.float8 then
    return .double ⟨.ofNat (BigEndian.toNat (<- exactly 8 bytes))⟩
  else if element = Oid.numeric then
    return .decimal (<- decimalOfBytes bytes)
  else if element = Oid.bytea then return .bytes bytes
  else if element = Oid.uuid then
    return .uuid ((Uuid.ofBytes? (<- exactly 16 bytes)).getD default)
  else if element = Oid.date then
    match Calendar.Date.ofDayNumber? (BigEndian.toInt (<- exactly 4 bytes)) with
    | some date => return .date date
    | none => throw (.conversion .dateRange)
  else if element = Oid.time then
    return .time (.ofMicroseconds (BigEndian.toInt (<- exactly 8 bytes)))
  else if element = Oid.timestamp ∨ element = Oid.timestamptz then
    match Calendar.Timestamp.ofMicroseconds? (BigEndian.toInt (<- exactly 8 bytes)) with
    | some timestamp => return .timestamp timestamp
    | none => throw (.conversion .timestampRange)
  else if element = Oid.interval then return .interval (<- intervalOfBytes bytes)
  else if element = Oid.json then return .json (<- readable (jsonOfBytes? bytes))
  else if element = Oid.jsonb then return .json (<- jsonbOfBytes bytes)
  else return .text (<- readable (utf8? bytes))

end Wire
end TypedQuery
