import TypedQuery.Host.Type
import TypedQuery.Json.Reader

/-!
# Converting host values

Host values are written as values of the server and read back from them.  An absent option is
NULL, a list is an array, and reading accepts a few more kinds of value than writing makes.
-/

namespace TypedQuery

namespace Shape

def write (s : Shape) (v : s.Carrier) : Result Json :=
  match s, v with
  | ⟨_, .record fields⟩, texts =>
      .ok (.ofMembers ((fields.zip texts).map fun (field, text) =>
        (field.name, match text with
          | some text => .string text
          | none => .null)))
  | ⟨name, .closed⟩, _ => .error (.conversion (.shape name))

/-- What a member holds for a field: a text, or nothing where the field is optional. -/
def readField (field : ShapeField) : Json -> Option (Option String)
  | .string text => some (some text)
  | .null => if field.optional then some none else none
  | _ => none

def readFields (members : Json) (fields : List ShapeField) :
    Option (List (Option String)) :=
  fields.mapM fun field =>
    match members.member? field.name with
    | some member => readField field member
    | none => if field.optional then some none else none

def readItems : List ShapeField -> List Json -> Option (List (Option String))
  | [], [] => some []
  | field :: fields, item :: items => do
      return (<- readField field item) :: (<- readItems fields items)
  | _, _ => none

/-- Reads a document: a record from an object, or from an array of just its fields; a closed
shape from null alone. -/
def read? (s : Shape) (document : Json) : Option s.Carrier :=
  match s, document with
  | ⟨_, .record fields⟩, .object members => readFields (.object members) fields
  | ⟨_, .record fields⟩, .array items => readItems fields items
  | ⟨_, .closed⟩, .null => some ()
  | _, _ => none

end Shape

namespace HostBase

def write (r : EnumRegistry) (b : HostBase) (v : b.Carrier) : Result Value :=
  match b, v with
  | bool, v => .ok (.bool v)
  | int16, n => .ok (.int (Int16.toInt32 n))
  | int32, n => .ok (.int n)
  | int64, n => .ok (.bigint n)
  | nat64, (n : UInt64) =>
      if n.toNat < Number.twoPow 63 then .ok (.bigint (Int64.ofNat n.toNat))
      else .error (.conversion (.unmapped nat64.name))
  | single, x => .ok (.float x)
  | double, x => .ok (.double x)
  | decimal, d => .ok (.decimal d)
  | text, s => .ok (.text s)
  | uuid, u => .ok (.uuid u)
  | date, d => .ok (.date d)
  | time, t => .ok (.time t)
  | timestamp, t => .ok (.timestamp t)
  | utcTimestamp, t => .ok (.timestamp t)
  | interval, i => .ok (.interval i)
  | bytes, b => .ok (.bytes b)
  | document, j => .ok (.json j)
  | shape s, v => do return .json (<- s.write v)
  | enum e, v => do
      let _ <- r.sqlType e
      return .enum v.val

/-- The error of a value of the wrong kind. -/
def mismatch {α : Type} (v : Value) (host : String) : Result α :=
  .error (.conversion (.mismatch v.variantName host))

def bounded {α : Type} (low high n : Int) (make : Int -> α) : Result α :=
  if n < low then .error (.conversion .tooSmall)
  else if high < n then .error (.conversion .tooLarge)
  else .ok (make n)

def readShape (s : Shape) (document : Option Json) : Result s.Carrier :=
  match document.bind s.read? with
  | some v => .ok v
  | none => .error (.conversion (.shape s.name))

def readLabel (e : EnumType) (label : String) : Result { l : String // l ∈ e.labels } :=
  if h : label ∈ e.labels then .ok ⟨label, h⟩ else .error (.conversion (.unlisted label e.name))

def read (b : HostBase) (v : Value) : Result b.Carrier :=
  match b, v with
  | bool, .bool v => .ok v
  | int16, .int n => bounded (-32768) 32767 n.toInt Int16.ofInt
  | int32, .int n => .ok n
  | int64, .bigint n => .ok n
  | int64, .int n => .ok n.toInt64
  | nat64, .bigint n =>
      bounded 0 (Number.twoPow 63 - 1) n.toInt fun n => (UInt64.ofNat n.toNat : UInt64)
  | single, .float x => .ok x
  | double, .double x => .ok x
  | double, .float x => .ok x.widen
  | decimal, .decimal d => .ok d
  | text, .text s => .ok s
  | text, .enum label => .ok label
  | text, .json j => .ok j.toText
  | uuid, .uuid u => .ok u
  | date, .date d => .ok d
  | time, .time t => .ok t
  | timestamp, .timestamp t => .ok t
  | utcTimestamp, .timestamp t => .ok t
  | interval, .interval i => .ok i
  | bytes, .bytes b => .ok b
  | document, .json j => .ok j
  | document, .null => .ok Json.null
  | shape s, .json j => readShape s (some j)
  | shape s, .text t => readShape s (Json.ofText? t)
  | enum e, .enum label => readLabel e label
  | enum e, .text label => readLabel e label
  | b, v => mismatch v b.name

end HostBase

namespace HostType

def write (r : EnumRegistry) (t : HostType) (v : t.Carrier) : Result Value :=
  match t, v with
  | base b, v => b.write r v
  | option _, none => .ok .null
  | option t, some v => t.write r v
  | list t, (vs : List t.Carrier) => do return .array (<- vs.mapM (t.write r))

def read (t : HostType) (v : Value) : Result t.Carrier :=
  match t, v with
  | base b, v => b.read v
  | option _, .null => .ok none
  | option t, v => do return some (<- t.read v)
  | list t, .array items => items.mapM t.read
  | list t, v => HostBase.mismatch v (list t).name

/-- Reads a value of a known type; the label of an enum must be one of the type's labels. -/
def readAs (t : HostType) (type : SqlType) (v : Value) : Result t.Carrier :=
  let unlisted (e : EnumType) (label : String) : Result t.Carrier :=
    if e.hasLabel label then t.read v else .error (.conversion (.unlisted label e.name))
  match type, v with
  | .enum e, .enum label => unlisted e label
  | .enum e, .text label => unlisted e label
  | _, v => t.read v

end HostType

namespace Typed

def nullOf (r : EnumRegistry) (t : HostType) : Result Typed := do
  return ⟨.null, <- t.sqlType r⟩

def ofHost (r : EnumRegistry) (v : HostValue) : Result Typed := do
  let value <- v.type.write r v.value
  return ⟨value, <- v.type.sqlType r⟩

end Typed

end TypedQuery
