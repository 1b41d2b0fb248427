import TypedQuery.Error
import TypedQuery.Sql.Value

/-!
# Host types

The types of the host program that have a place in the database: base types, options of them and
lists of them, to any depth.  Every host type has a Lean type of its values, a name that messages
use, and a value type.  The value type of an enum exists only once the enum is registered.
-/

namespace TypedQuery

/-- A named text field of a record; an optional field may be missing or null. -/
structure ShapeField where
  name : String
  optional : Bool
deriving DecidableEq

/-- What the documents of a shape look like; a closed shape is never written. -/
inductive ShapeForm where
  | record (fields : List ShapeField)
  | closed
deriving DecidableEq

/-- A host type whose values are kept as JSON documents. -/
structure Shape where
  name : String
  form : ShapeForm
deriving DecidableEq

def Shape.Carrier (s : Shape) : Type :=
  match s.form with
  | .record _ => List (Option String)
  | .closed => Unit

inductive HostBase where
  | bool
  | int16
  | int32
  | int64
  | nat64
  | single
  | double
  | decimal
  | text
  | uuid
  | date
  | time
  | timestamp
  | utcTimestamp
  | interval
  | bytes
  | document
  | shape (s : Shape)
  | enum (e : EnumType)
deriving DecidableEq

inductive HostType where
  | base (b : HostBase)
  | option (t : HostType)
  | list (t : HostType)
deriving DecidableEq

namespace HostBase

/-- The values of a base type; those of an enum are its labels. -/
def Carrier : HostBase -> Type
  | bool => Bool
  | int16 => Int16
  | int32 => Int32
  | int64 => Int64
  | nat64 => UInt64
  | single => Number.Single
  | double => Number.Double
  | decimal => Number.Decimal
  | text => String
  | uuid => Uuid
  | date => Calendar.Date
  | time => Calendar.TimeOfDay
  | timestamp => Calendar.Timestamp
  | utcTimestamp => Calendar.Timestamp
  | interval => Interval
  | bytes => List UInt8
  | document => Json
  | shape s => s.Carrier
  | enum e => { label : String // label ∈ e.labels }

def name : HostBase -> String
  | bool => "bool"
  | int16 => "i16"
  | int32 => "i32"
  | int64 => "i64"
  | nat64 => "u64"
  | single => "f32"
  | double => "f64"
  | decimal => "rust_decimal::decimal::Decimal"
  | text => "alloc::string::String"
  | uuid => "uuid::Uuid"
  | date => "chrono::naive::date::NaiveDate"
  | time => "chrono::naive::time::NaiveTime"
  | timestamp => "chrono::naive::datetime::NaiveDateTime"
  | utcTimestamp => "chrono::datetime::DateTime<chrono::offset::utc::Utc>"
  | interval => "oxide_pg_core::types::value::Interval"
  | bytes => "oxide_pg_core::types::value::Binary"
  | document => "serde_json::value::Value"
  | shape s => s!"oxide_pg_core::types::convert::Json<{s.name}>"
  | enum e => e.host

end HostBase

namespace HostType

def Carrier : HostType -> Type
  | base b => b.Carrier
  | option t => Option t.Carrier
  | list t => List t.Carrier

def name : HostType -> String
  | base b => b.name
  | option t => s!"core::option::Option<{t.name}>"
  | list t => s!"alloc::vec::Vec<{t.name}>"

end HostType

structure HostValue where
  type : HostType
  value : type.Carrier

/-!
## Registered enums
-/

/-- The enums that may be used, each registered once under its host type. -/
structure EnumRegistry where
  types : List EnumType := []
deriving DecidableEq

namespace EnumRegistry

def lookup? (r : EnumRegistry) (host : String) : Option EnumType :=
  r.types.find? (·.host == host)

/-- Registers an enum; a host type that is registered keeps its first descriptor. -/
def register (r : EnumRegistry) (e : EnumType) : EnumType × EnumRegistry :=
  match r.lookup? e.host with
  | some existing => (existing, r)
  | none => (e, ⟨r.types ++ [e]⟩)

def sqlType (r : EnumRegistry) (e : EnumType) : Result SqlType :=
  match r.lookup? e.host with
  | some registered => .ok (.enum registered)
  | none => .error (.conversion (.unregistered e.host))

end EnumRegistry

namespace HostBase

def sqlType (r : EnumRegistry) : HostBase -> Result SqlType
  | bool => .ok .boolean
  | int16 | int32 => .ok .integer
  | int64 | nat64 => .ok .bigint
  | single => .ok .real
  | double => .ok .double
  | decimal => .ok .numeric
  | text => .ok .text
  | uuid => .ok .uuid
  | date => .ok .date
  | time => .ok .time
  | timestamp | utcTimestamp => .ok .timestamp
  | interval => .ok .interval
  | bytes => .ok .bytea
  | document => .ok (.json none)
  | shape s => .ok (.json (some s.name))
  | enum e => r.sqlType e

end HostBase

/-- The value type of a host type; an option has the type of what it may hold. -/
def HostType.sqlType (r : EnumRegistry) : HostType -> Result SqlType
  | base b => b.sqlType r
  | option t => t.sqlType r
  | list t => do return .array (<- t.sqlType r)

end TypedQuery
