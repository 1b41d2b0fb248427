import TypedQuery.Number.Decimal
import TypedQuery.Calendar.Timestamp
import TypedQuery.Json.Document
import TypedQuery.Sql.Type

/-!
# Values

A value as it travels to and from the server, and the pair of a value with the type chosen for it.
Values of floating point types are kept as bits, so nothing is lost on the way.
-/

namespace TypedQuery

/-- Months, days and microseconds, kept apart as the server keeps them. -/
structure Interval where
  months : Int32
  days : Int32
  microseconds : Int64
deriving DecidableEq, Inhabited

/-- An identifier of 16 bytes. -/
structure Uuid where
  bytes : List UInt8
  length_eq : bytes.length = 16
deriving DecidableEq

namespace Uuid

def ofBytes? (bytes : List UInt8) : Option Uuid :=
  if h : bytes.length = 16 then some ⟨bytes, h⟩ else none

instance : Inhabited Uuid := ⟨⟨List.replicate 16 0, rfl⟩⟩

end Uuid

inductive Value where
  | null
  | bool (b : Bool)
  | int (n : Int32)
  | bigint (n : Int64)
  | float (x : Number.Single)
  | double (x : Number.Double)
  | decimal (d : Number.Decimal)
  | text (s : String)
  | uuid (u : Uuid)
  | date (d : Calendar.Date)
  | time (t : Calendar.TimeOfDay)
  | timestamp (t : Calendar.Timestamp)
  | interval (i : Interval)
  | bytes (b : List UInt8)
  | json (document : Json)
  | enum (label : String)
  | array (items : List Value)
deriving Inhabited

namespace Value

def isNull : Value -> Bool
  | null => true
  | _ => false

def variantName : Value -> String
  | null => "null"
  | bool _ => "bool"
  | int _ => "int"
  | bigint _ => "bigint"
  | float _ => "float"
  | double _ => "double"
  | decimal _ => "decimal"
  | text _ => "text"
  | uuid _ => "uuid"
  | date _ => "date"
  | time _ => "time"
  | timestamp _ => "datetime"
  | interval _ => "interval"
  | bytes _ => "bytes"
  | json _ => "json"
  | enum _ => "enum"
  | array _ => "array"

mutual

/-- Equality of values: decimals by value, floating point numbers as they compare, everything
else by its parts. -/
def same : Value -> Value -> Bool
  | null, null => true
  | bool a, bool b => a == b
  | int a, int b => a == b
  | bigint a, bigint b => a == b
  | float a, float b => a.widen.toFloat == b.widen.toFloat
  | double a, double b => a.toFloat == b.toFloat
  | decimal a, decimal b => a.compare b == .eq
  | text a, text b => a == b
  | uuid a, uuid b => a == b
  | date a, date b => a == b
  | time a, time b => a == b
  | timestamp a, timestamp b => a == b
  | interval a, interval b => a == b
  | bytes a, bytes b => a == b
  | json a, json b => a.same b
  | enum a, enum b => a == b
  | array as, array bs => sameItems as bs
  | _, _ => false

def sameItems : List Value -> List Value -> Bool
  | [], [] => true
  | a :: as, b :: bs => same a b && sameItems as bs
  | _, _ => false

end

end Value

/-- A value with the type chosen for it. -/
structure Typed where
  value : Value
  type : SqlType
deriving Inhabited

def Typed.null : Typed := ⟨.null, .null⟩

end TypedQuery
