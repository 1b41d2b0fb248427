import TypedQuery.Exchange.Value
import TypedQuery.Row.Reader

/-!
# Host values and rows as documents

A host value is written plainly, since its type is known to whoever reads it.  A host type is
named by words: `opt` and `vec` stand before the type they are made of.
-/

namespace TypedQuery

namespace Shape

def shortName (s : Shape) : String :=
  String.ofList ((s.name.toList.reverse.takeWhile (· != ':')).reverse.map Char.toLower)

def toJson (s : Shape) (v : s.Carrier) : Json :=
  match s, v with
  | ⟨_, .record fields⟩, texts =>
      .ofMembers ((fields.zip texts).map fun (field, text) => (field.name, .ofOption .string text))
  | ⟨name, .closed⟩, _ => .string (shortName ⟨name, .closed⟩)

def ofJson? (s : Shape) (j : Json) : Option s.Carrier :=
  match s with
  | ⟨_, .record fields⟩ => fields.mapM fun field => Json.optionOf? Json.text? (j.entry field.name)
  | ⟨_, .closed⟩ => some ()

end Shape

namespace HostBase

/-- The base types that have no parameters, by name. -/
def plainNames : List (String × HostBase) := [
  ("bool", bool), ("i16", int16), ("i32", int32), ("i64", int64), ("u64", nat64), ("f32", single),
  ("f64", double), ("decimal", decimal), ("string", text), ("str", text), ("uuid", uuid),
  ("date", date), ("time", time), ("datetime", timestamp), ("datetimeutc", utcTimestamp),
  ("interval", interval), ("binary", bytes), ("jsondoc", document)]

def toJson (b : HostBase) (v : b.Carrier) : Json :=
  match b, v with
  | bool, v => .bool v
  | int16, n => .ofInt (Int16.toInt n)
  | int32, n => .ofInt (Int32.toInt n)
  | int64, n => .ofInt (Int64.toInt n)
  | nat64, n => .ofNat (UInt64.toNat n)
  | single, x => Number.Single.toJson x
  | double, x => Number.Double.toJson x
  | decimal, d => Number.Decimal.toJson d
  | text, s => .string s
  | uuid, u => .string (Uuid.toText u)
  | date, d => Calendar.Date.toJson d
  | time, t => Calendar.TimeOfDay.toJson t
  | timestamp, t => Calendar.Timestamp.toJson t
  | utcTimestamp, t => Calendar.Timestamp.toJson t
  | interval, i => Interval.toJson i
  | bytes, b => .ofBytes b
  | document, j => .string (Json.toText j)
  | shape s, v => s.toJson v
  | enum _, v => .string v.val

def ofJson? (b : HostBase) (j : Json) : Option b.Carrier :=
  match b with
  | bool => j.bool?
  | int16 => j.integer?.map Int16.ofInt
  | int32 => j.integer?.map Int32.ofInt
  | int64 => j.integer?.map Int64.ofInt
  | nat64 => j.natural?.map UInt64.ofNat
  | single => Number.Single.ofJson? j
  | double => Number.Double.ofJson? j
  | decimal => Number.Decimal.ofJson? j
  | text => j.text?
  | uuid => Uuid.ofJson? j
  | date => Calendar.Date.ofJson? j
  | time => Calendar.TimeOfDay.ofJson? j
  | timestamp => Calendar.Timestamp.ofJson? j
  | utcTimestamp => Calendar.Timestamp.ofJson? j
  | interval => Interval.ofJson? j
  | bytes => j.bytes?
  | document => j.embedded?
  | shape s => s.ofJson? j
  | enum e => do
      let label <- j.text?
      if h : label ∈ e.labels then return ⟨label, h⟩ else none

end HostBase

namespace HostType

def toJson : (t : HostType) -> t.Carrier -> Json
  | base b, v => b.toJson v
  | option t, (v : Option t.Carrier) => .ofOption t.toJson v
  | list t, (vs : List t.Carrier) => .array (vs.map t.toJson)

def ofJson? : (t : HostType) -> Json -> Option t.Carrier
  | base b, j => b.ofJson? j
  | option t, j => j.optionOf? t.ofJson?
  | list t, j => j.listOf? t.ofJson?

/-- The host type that words name, given the base types that are known besides the plain ones. -/
def ofWords? (known : List (String × HostBase)) : List String -> Option HostType
  | "opt" :: rest => (ofWords? known rest).map option
  | "vec" :: rest | "slice" :: rest => (ofWords? known rest).map list
  | [name] => ((HostBase.plainNames ++ known).find? (·.1 == name)).map fun (_, b) => base b
  | _ => none

def ofName? (known : List (String × HostBase)) (name : String) : Option HostType :=
  ofWords? known (name.splitOn " ")

end HostType

/-- A field that names no host type is read as it is. -/
def FieldHost.ofJson? (known : List (String × HostBase)) : Json -> Option FieldHost
  | .null | .string "raw" => some .raw
  | j => do return .host (<- HostType.ofName? known (<- j.text?))

def FieldValue.toJson : FieldValue -> Json
  | ⟨.raw, v⟩ => v.toJson
  | ⟨.host t, v⟩ => t.toJson v

/-- A value of a host type stands beside the name of the type. -/
def FieldValue.ofJson? (known : List (String × HostBase)) : Json -> Option FieldValue
  | .object [("host", .array [name, value])] => do
      let t <- HostType.ofName? known (<- name.text?)
      return ⟨.host t, <- t.ofJson? value⟩
  | j => do
      let value <- Value.ofJson? j
      return ⟨.raw, value⟩

def Instance.toJson (fields : Instance) : Json :=
  .object [("m", .array (fields.map FieldValue.toJson))]

namespace ResultSet

def toJson (r : ResultSet) : Json :=
  .ofMembers [("rows", .array (r.rows.map fun row => .array (row.map Value.toJson))),
    ("affected", .ofNat r.affected)]

/-- Without a number of affected rows, every row counts. -/
def ofJson? (j : Json) : Option ResultSet := do
  let rows <- Json.optionOf? (Json.listOf? (Json.listOf? Value.ofJson?)) (j.entry "rows")
  let affected <- Json.optionOf? Json.natural? (j.entry "affected")
  return ⟨rows.getD [], affected.getD (rows.getD []).length⟩

end ResultSet

end TypedQuery
