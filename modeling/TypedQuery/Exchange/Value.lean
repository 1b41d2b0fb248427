import TypedQuery.Number.BigEndian
import TypedQuery.Sql.Bytes
import TypedQuery.Json.Reader

/-!
# Values and types as documents

The self-describing JSON form of values and types.  A value is an object whose only member is
named for the kind of value; a type without parameters is its name.  Floating point numbers are
written as the digits of their bits, so that nothing is lost; only the payload of a not-a-number
is left out.
-/

namespace TypedQuery

def Json.ofBytes (bytes : List UInt8) : Json := .string (String.ofList (Hex.encode bytes))

def Json.bytes? (j : Json) : Option (List UInt8) := do Hex.decode? (<- j.text?).toList

/-!
## Types
-/

namespace EnumType

def toJson (e : EnumType) : Json :=
  .ofMembers [("host", .string e.host), ("name", .string e.name),
    ("schema", .ofOption .string e.schema), ("labels", .array (e.labels.map .string))]

def ofJson? (j : Json) : Option EnumType := do
  return ⟨<- (j.entry "host").text?, <- (j.entry "name").text?,
    <- Json.optionOf? Json.text? (j.entry "schema"), <- Json.listOf? Json.text? (j.entry "labels")⟩

end EnumType

namespace SqlType

def plainNames : List (String × SqlType) := [
  ("null", null), ("bool", boolean), ("int", integer), ("bigint", bigint), ("float", real),
  ("double", double), ("decimal", numeric), ("string", text), ("uuid", uuid), ("date", date),
  ("time", time), ("datetime", timestamp), ("interval", interval), ("binary", bytea),
  ("json", json none)]

def toJson : SqlType -> Json
  | json (some shape) => .ofMembers [("json", .string shape)]
  | enum e => .ofMembers [("enum", e.toJson)]
  | array item => .ofMembers [("array", item.toJson)]
  | t => .ofOption (.string ·.1) (plainNames.find? (·.2 = t))

def ofJson? : Json -> Option SqlType
  | .string name => (plainNames.find? (·.1 == name)).map (·.2)
  | .object [("json", .string shape)] => some (json (some shape))
  | .object [("enum", e)] => (EnumType.ofJson? e).map enum
  | .object [("array", item)] => (ofJson? item).map array
  | _ => none

end SqlType

/-!
## Values
-/

namespace Calendar

def Date.parts (d : Date) : List Json := [.ofInt d.year, .ofNat d.month, .ofNat d.day]

def TimeOfDay.parts (t : TimeOfDay) : List Json :=
  [.ofNat t.hour, .ofNat t.minute, .ofNat t.second, .ofNat t.nanos]

def Date.ofParts? : List Json -> Option Date
  | [y, m, d] => do Date.ofYmd? (<- y.integer?) (<- m.natural?) (<- d.natural?)
  | _ => none

def TimeOfDay.ofNumbers? : List Json -> Option TimeOfDay
  | [h, m, s, n] => do
      TimeOfDay.ofHms? (<- h.natural?) (<- m.natural?) (<- s.natural?) (<- n.natural?)
  | _ => none

def Date.toJson (d : Date) : Json := .array d.parts

def Date.ofJson? (j : Json) : Option Date := j.items?.bind Date.ofParts?

def TimeOfDay.toJson (t : TimeOfDay) : Json := .array t.parts

def TimeOfDay.ofJson? (j : Json) : Option TimeOfDay := j.items?.bind TimeOfDay.ofNumbers?

def Timestamp.toJson (t : Timestamp) : Json := .array (t.date.parts ++ t.time.parts)

def Timestamp.ofJson? (j : Json) : Option Timestamp := do
  let parts <- j.items?
  return ⟨<- Date.ofParts? (parts.take 3), <- TimeOfDay.ofNumbers? (parts.drop 3)⟩

end Calendar

namespace Interval

def toJson (i : Interval) : Json :=
  .array [.ofInt i.months.toInt, .ofInt i.days.toInt, .ofInt i.microseconds.toInt]

def ofJson? (j : Json) : Option Interval := do
  match <- j.items? with
  | [months, days, micros] =>
      return ⟨.ofInt (<- months.integer?), .ofInt (<- days.integer?), .ofInt (<- micros.integer?)⟩
  | _ => none

end Interval

namespace Number

def Single.toJson (x : Single) : Json :=
  if x.widen.isNaN then .string "nan" else .ofBytes (BigEndian.ofNat 4 x.bits.toNat)

def Single.ofJson? (j : Json) : Option Single := do
  return ⟨.ofNat (BigEndian.toNat (<- j.bytes?))⟩

def Double.toJson (x : Double) : Json :=
  if x.isNaN then .string "nan" else .ofBytes (BigEndian.ofNat 8 x.bits.toNat)

def Double.ofJson? (j : Json) : Option Double := do
  return ⟨.ofNat (BigEndian.toNat (<- j.bytes?))⟩

def Decimal.toJson (d : Decimal) : Json := .string d.toText

def Decimal.ofJson? (j : Json) : Option Decimal := j.text?.bind Decimal.ofText?

end Number

def Uuid.ofJson? (j : Json) : Option Uuid := j.text?.bind Uuid.ofText?

def Json.embedded? (j : Json) : Option Json := j.text?.bind Json.ofText?

namespace Value

/-- A scalar value from its kind and its content. -/
def scalarOfJson? (kind : String) (j : Json) : Option Value :=
  match kind with
  | "bool" => j.bool?.map bool
  | "int" => j.integer?.map fun n => int (.ofInt n)
  | "bigint" => j.integer?.map fun n => bigint (.ofInt n)
  | "float" => (Number.Single.ofJson? j).map float
  | "double" => (Number.Double.ofJson? j).map double
  | "decimal" => (Number.Decimal.ofJson? j).map decimal
  | "text" => j.text?.map text
  | "uuid" => (Uuid.ofJson? j).map uuid
  | "date" => (Calendar.Date.ofJson? j).map date
  | "time" => (Calendar.TimeOfDay.ofJson? j).map time
  | "datetime" => (Calendar.Timestamp.ofJson? j).map timestamp
  | "interval" => (Interval.ofJson? j).map interval
  | "bytes" => j.bytes?.map bytes
  | "json" => j.embedded?.map json
  | "enum" => j.text?.map enum
  | _ => none

/-- A value is an object with one member, named for its kind; NULL is null. -/
def named (kind : String) (content : Json) : Json :=
  if content.isNull then .null else .object [(kind, content)]

mutual

def content : Value -> Json
  | null => .null
  | bool b => .bool b
  | int n => .ofInt n.toInt
  | bigint n => .ofInt n.toInt
  | float x => x.toJson
  | double x => x.toJson
  | decimal d => d.toJson
  | text s => .string s
  | uuid u => .string u.toText
  | date d => d.toJson
  | time t => t.toJson
  | timestamp t => t.toJson
  | interval i => i.toJson
  | bytes b => .ofBytes b
  | json document => .string document.toText
  | enum label => .string label
  | array items => .array (itemsToJson items)

def itemsToJson : List Value -> List Json
  | [] => []
  | v :: rest => named v.variantName v.content :: itemsToJson rest

end

def toJson (v : Value) : Json := named v.variantName v.content

mutual

def ofJson? : Json -> Option Value
  | .null => some null
  | .object [("array", .array items)] => (itemsOfJson? items).map array
  | .object [(kind, content)] => scalarOfJson? kind content
  | _ => none

def itemsOfJson? : List Json -> Option (List Value)
  | [] => some []
  | j :: rest => do return (<- ofJson? j) :: (<- itemsOfJson? rest)

end

end Value

namespace Typed

def toJson (v : Typed) : Json := .array [v.value.toJson, v.type.toJson]

end Typed

end TypedQuery
