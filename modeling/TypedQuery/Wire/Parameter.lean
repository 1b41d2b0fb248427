import TypedQuery.Fragment.Render
import TypedQuery.Wire.Array

/-!
# Parameters of prepared statements

A parameter travels with the number of its type and its bytes.  The value decides the type of a
scalar, and the declared type that of an array.
-/

namespace TypedQuery
namespace Wire

open Number (BigEndian.ofNat BigEndian.ofInt)

/-- A parameter as it is sent; NULL has no bytes. -/
structure Bound where
  type : Oid
  bytes : Option (List UInt8)

def utf8 (text : String) : List UInt8 := text.toUTF8.toList

def intervalBytes (i : Interval) : List UInt8 :=
  BigEndian.ofInt 8 i.microseconds.toInt ++ BigEndian.ofInt 4 i.days.toInt ++
    BigEndian.ofInt 4 i.months.toInt

/-- The type and the bytes of a scalar; NULL and arrays are none. -/
def scalar? : Value -> Option (Oid × List UInt8)
  | .null | .array _ => none
  | .bool b => some (Oid.bool, [if b then 1 else 0])
  | .int n => some (Oid.int4, BigEndian.ofInt 4 n.toInt)
  | .bigint n => some (Oid.int8, BigEndian.ofInt 8 n.toInt)
  | .float x => some (Oid.float4, BigEndian.ofNat 4 x.bits.toNat)
  | .double x => some (Oid.float8, BigEndian.ofNat 8 x.bits.toNat)
  | .decimal d => some (Oid.numeric, (DigitGroups.ofDecimal d).write)
  | .text s | .enum s => some (Oid.text, utf8 s)
  | .uuid u => some (Oid.uuid, u.bytes)
  | .date d => some (Oid.date, BigEndian.ofInt 4 d.toDayNumber)
  | .time t => some (Oid.time, BigEndian.ofNat 8 t.toMicroseconds)
  | .timestamp t => some (Oid.timestamp, BigEndian.ofInt 8 t.toMicroseconds)
  | .interval i => some (Oid.interval, intervalBytes i)
  | .bytes b => some (Oid.bytea, b)
  | .json document => some (Oid.jsonb, 1 :: utf8 document.toText)

/-- The type of the elements of an array with a declared item; labels travel as text, and arrays
of arrays do not travel at all. -/
def elementOid? : SqlType -> Option Oid
  | .boolean => some Oid.bool
  | .integer => some Oid.int4
  | .bigint => some Oid.int8
  | .real => some Oid.float4
  | .double => some Oid.float8
  | .numeric => some Oid.numeric
  | .text | .enum _ | .null => some Oid.text
  | .uuid => some Oid.uuid
  | .date => some Oid.date
  | .time => some Oid.time
  | .timestamp => some Oid.timestamp
  | .interval => some Oid.interval
  | .bytea => some Oid.bytea
  | .json _ => some Oid.jsonb
  | .array _ => none

/-- The bytes of an element that must have the given type; an integer is also a bigint. -/
def elementBytes (element : Oid) (v : Value) : Result (Option (List UInt8)) :=
  match v with
  | .null => .ok none
  | v =>
      let widened : Value := match v with
        | .int n => if element = Oid.int8 then .bigint n.toInt64 else v
        | v => v
      match scalar? widened with
      | some (type, bytes) =>
          if type = element then .ok (some bytes)
          else .error (.conversion (.elementKind v.variantName))
      | none => .error (.conversion (.elementKind v.variantName))

/-- The bytes of an element after their number; NULL has the length minus one. -/
def framed : Option (List UInt8) -> List UInt8
  | some bytes => BigEndian.ofNat 4 bytes.length ++ bytes
  | none => BigEndian.ofInt 4 (-1)

def arrayBytes (element : Oid) (elements : List (Option (List UInt8))) : List UInt8 :=
  BigEndian.ofNat 4 1 ++ BigEndian.ofNat 4 0 ++ BigEndian.ofNat 4 element ++
    BigEndian.ofNat 4 elements.length ++ BigEndian.ofNat 4 1 ++ elements.flatMap framed

def bindArray (type : SqlType) (items : List Value) : Result Bound := do
  match elementOid? (type.item?.getD .null) with
  | some element =>
      let elements <- items.mapM (elementBytes element)
      return ⟨(Oid.arrayOf? element).getD 0, some (arrayBytes element elements)⟩
  | none => throw (.conversion .nestedBinding)

/-- A value as a parameter; NULL travels as a text. -/
def bind (v : Typed) : Result Bound :=
  match v.value with
  | .array items => bindArray v.type items
  | value =>
      match scalar? value with
      | some (type, bytes) => .ok ⟨type, some bytes⟩
      | none => .ok ⟨Oid.text, none⟩

/-- Whether a value can be a parameter at all: it is not declared as an array of arrays. -/
def isBindable (v : Typed) : Bool := !(v.type.item?.any (·.isArray))

end Wire
end TypedQuery
