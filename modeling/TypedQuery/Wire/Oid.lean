/-!
# Type numbers of the server

Every type of the server has a number.  Those of the built-in types are known, together with the
numbers of their array types; what other numbers stand for is looked up once and remembered.
-/

namespace TypedQuery
namespace Wire

abbrev Oid := Nat

namespace Oid

def bool : Oid := 16
def bytea : Oid := 17
def char : Oid := 18
def name : Oid := 19
def int8 : Oid := 20
def int2 : Oid := 21
def int4 : Oid := 23
def text : Oid := 25
def json : Oid := 114
def float4 : Oid := 700
def float8 : Oid := 701
def bpchar : Oid := 1042
def varchar : Oid := 1043
def date : Oid := 1082
def time : Oid := 1083
def timestamp : Oid := 1114
def timestamptz : Oid := 1184
def interval : Oid := 1186
def numeric : Oid := 1700
def uuid : Oid := 2950
def jsonb : Oid := 3802

/-- Built-in scalar types, each with its array type. -/
def builtins : List (Oid × Oid) := [
  (bool, 1000), (bytea, 1001), (char, 1002), (name, 1003), (int8, 1016), (int2, 1005),
  (int4, 1007), (text, 1009), (json, 199), (float4, 1021), (float8, 1022), (bpchar, 1014),
  (varchar, 1015), (date, 1182), (time, 1183), (timestamp, 1115), (timestamptz, 1185),
  (interval, 1187), (numeric, 1231), (uuid, 2951), (jsonb, 3807)]

/-- The array type of a built-in scalar type. -/
def arrayOf? (scalar : Oid) : Option Oid := (builtins.find? (·.1 == scalar)).map (·.2)

end Oid

/-- How the values of a type are read. -/
inductive Encoding where
  | scalar (type : Oid)
  | array (element : Oid)
  /-- Enums and other types of users, which are read as text. -/
  | label
deriving DecidableEq

def Encoding.builtin? (type : Oid) : Option Encoding :=
  Oid.builtins.findSome? fun pair =>
    if type = pair.1 then some (.scalar pair.1)
    else if type = pair.2 then some (.array pair.1)
    else none

/-- The types of users that were looked up; an array type with the type of its elements. -/
structure TypeCatalog where
  known : List (Oid × Option Oid) := []
deriving Inhabited

namespace TypeCatalog

def record (c : TypeCatalog) (type : Oid) (element : Option Oid) : TypeCatalog :=
  ⟨(type, element) :: c.known⟩

/-- How to read a type, or none if it must be looked up. -/
def classify? (c : TypeCatalog) (type : Oid) : Option Encoding :=
  match Encoding.builtin? type with
  | some encoding => some encoding
  | none => (c.known.find? (·.1 == type)).map fun (_, element) =>
      match element with
      | some element => .array element
      | none => .label

end TypeCatalog

end Wire
end TypedQuery
