import TypedQuery.Session.Fault
import TypedQuery.Wire.Array

/-!
# Columns of results

A cell comes as text or as bytes, as the statement was sent.  Built-in scalars are read strictly
by their type, and one that cannot be read is an error of the server; arrays and intervals in
text report what is wrong with them; everything else is text.
-/

namespace TypedQuery
namespace Wire

open Number (BigEndian.toNat BigEndian.toInt)

inductive Format where
  | text
  | binary
deriving DecidableEq

def within? (bits : Nat) (n : Int) : Option Int :=
  if -Number.twoPow (bits - 1) ≤ n ∧ n < Number.twoPow (bits - 1) then some n else none

def textScalar? (type : Oid) (text : String) : Option Value :=
  let whole (bits : Nat) : Option Int := (Number.readInt64? text.toList).bind (within? bits)
  if type = Oid.bool then
    match text with
    | "t" => some (.bool true)
    | "f" => some (.bool false)
    | _ => none
  else if type = Oid.int2 then (whole 16).map (.int <| .ofInt ·)
  else if type = Oid.int4 then (whole 32).map (.int <| .ofInt ·)
  else if type = Oid.int8 then (whole 64).map (.bigint <| .ofInt ·)
  else if type = Oid.float4 then (Number.Single.ofText? text).map .float
  else if type = Oid.float8 then (Number.Double.ofText? text).map .double
  else if type = Oid.numeric then (Number.Decimal.ofText? text).map .decimal
  else if type = Oid.uuid then (Uuid.ofText? text).map .uuid
  else if type = Oid.date then (Calendar.Date.ofText? text).map .date
  else if type = Oid.time then (Calendar.TimeOfDay.ofText? text).map .time
  else if type = Oid.timestamp ∨ type = Oid.timestamptz then
    (Calendar.Timestamp.ofUtcText? text).map .timestamp
  else if type = Oid.bytea then
    match text.toList with
    | '\\' :: 'x' :: digits => (Hex.decode? digits).map .bytes
    | _ => none
  else if type = Oid.json ∨ type = Oid.jsonb then (Json.ofText? text).map .json
  else some (.text text)

/-- A whole number of one to eight bytes. -/
def integerOfBytes? (bits : Nat) (bytes : List UInt8) : Option Int :=
  if bytes.isEmpty ∨ bytes.length > 8 then none else within? bits (BigEndian.toInt bytes)

/-- A day counted from the first of 2000. -/
def dateOfBytes? (bytes : List UInt8) : Option Calendar.Date :=
  (integerOfBytes? 32 bytes).bind Calendar.Date.ofDayNumber?

/-- Reads a scalar from its bytes; bytes after a floating point number do not count. -/
def binaryScalar? (type : Oid) (bytes : List UInt8) : Option Value :=
  let front (count : Nat) : Option Nat :=
    if count ≤ bytes.length then some (BigEndian.toNat (bytes.take count)) else none
  if type = Oid.bool then bytes.head?.map fun b => .bool (b != 0)
  else if type = Oid.int2 then (integerOfBytes? 16 bytes).map (.int <| .ofInt ·)
  else if type = Oid.int4 then (integerOfBytes? 32 bytes).map (.int <| .ofInt ·)
  else if type = Oid.int8 then (integerOfBytes? 64 bytes).map (.bigint <| .ofInt ·)
  else if type = Oid.float4 then (front 4).map fun bits => .float ⟨.ofNat bits⟩
  else if type = Oid.float8 then (front 8).map fun bits => .double ⟨.ofNat bits⟩
  else if type = Oid.numeric then
    ((DigitGroups.read bytes).toOption.bind DigitGroups.sum?).map .decimal
  else if type = Oid.uuid then (Uuid.ofBytes? bytes).map .uuid
  else if type = Oid.date then (dateOfBytes? bytes).map .date
  else if type = Oid.time then
    (integerOfBytes? 64 bytes).map fun n => .time (.ofMicroseconds n)
  else if type = Oid.timestamp ∨ type = Oid.timestamptz then
    ((integerOfBytes? 64 bytes).bind Calendar.Timestamp.ofMicroseconds?).map .timestamp
  else if type = Oid.interval then (intervalOfBytes bytes).toOption.map .interval
  else if type = Oid.bytea then some (.bytes bytes)
  else if type = Oid.json then (jsonOfBytes? bytes).map .json
  else if type = Oid.jsonb then (jsonbOfBytes bytes).toOption.map .json
  else (utf8? bytes).map .text

/-- The value of a reader that leaves errors to the server. -/
def strict {α : Type} (value : Option α) : Outcome α :=
  match value with
  | some value => .ok value
  | none => .error (.server .other)

/-- The value of a reader that says what is wrong. -/
def reported {α : Type} (value : Result α) : Outcome α := value.mapError .query

def decodeCell (format : Format) (encoding : Encoding) (bytes : List UInt8) : Outcome Value :=
  match encoding, format with
  | .label, _ => strict ((utf8? bytes).map .text)
  | .array element, .text => reported do ArrayText.read element (<- readable (utf8? bytes))
  | .array _, .binary => reported (ArrayBytes.read bytes)
  | .scalar type, .text =>
      if type = Oid.interval then
        reported do return .interval (<- readInterval (<- readable (utf8? bytes)).toList)
      else strict ((utf8? bytes).bind (textScalar? type))
  | .scalar type, .binary => strict (binaryScalar? type bytes)

end Wire
end TypedQuery
