import TypedQuery.Host.Conversion
import TypedQuery.Schema.Table

/-!
# Reading rows

The values of a row are read from left to right.  A value counts as read even when it does not
convert, and an error says at which position it happened.
-/

namespace TypedQuery

/-- The values of a row that are left, and how many were read. -/
structure RowReader where
  values : List Value
  position : Nat := 0
deriving Inhabited

/-- A reading of a row: it may fail, and moves on in either case. -/
abbrev RowM (α : Type) := ExceptT Error (StateM RowReader) α

namespace RowReader

def remaining (r : RowReader) : Nat := r.values.length

def run {α : Type} (reading : RowM α) (values : List Value) : Result α :=
  (reading.run ⟨values, 0⟩).1

def next : RowM Value := do
  let r <- get
  match r.values with
  | [] => throw (.conversion (.rowEnd r.position))
  | v :: rest =>
      set { values := rest, position := r.position + 1 : RowReader }
      return v

def read (t : HostType) : RowM t.Carrier := do
  let position := (<- get).position
  let v <- next
  match t.read v with
  | .ok v => return v
  | .error (.conversion fault) => throw (.conversion (.inColumn position fault))
  | .error e => throw e

/-- Takes values without looking at them. -/
def skip : Nat -> RowM Unit
  | 0 => pure ()
  | n + 1 => do
      let _ <- next
      skip n

def take : Nat -> RowM (List Value)
  | 0 => pure []
  | n + 1 => do
      let v <- next
      return v :: (<- take n)

end RowReader

/-!
## Models
-/

/-- How a field of a model is read: as the value it is, or as a host type. -/
inductive FieldHost where
  | raw
  | host (t : HostType)
deriving DecidableEq

def FieldHost.Carrier : FieldHost -> Type
  | raw => Value
  | host t => t.Carrier

instance : Coe HostType FieldHost := ⟨FieldHost.host⟩

structure FieldValue where
  host : FieldHost
  value : host.Carrier

namespace FieldHost

def read : (h : FieldHost) -> RowM h.Carrier
  | raw => RowReader.next
  | host t => RowReader.read t

def ofValue : (h : FieldHost) -> Value -> Result h.Carrier
  | raw, v => .ok v
  | host t, v => t.read v

end FieldHost

def FieldValue.write (r : EnumRegistry) (v : FieldValue) : Result Value :=
  match v with
  | ⟨.raw, v⟩ => .ok v
  | ⟨.host t, v⟩ => t.write r v

/-- A type stored as rows of one table: its table, or why it has none, and its fields. -/
structure Model where
  name : String
  table : Result Table
  hosts : List FieldHost

abbrev Instance := List FieldValue

namespace Model

def fromRow (m : Model) : RowM Instance :=
  m.hosts.mapM fun h => do return ⟨h, <- h.read⟩

/-- Reads an instance after the column that says whether there is one. -/
def readNullable (m : Model) : RowM (Option Instance) := do
  let absent : RowM (Option Instance) := do
    match m.table with
    | .ok t => RowReader.skip t.columns.length
    | .error e => throw e
    return none
  match <- RowReader.next with
  | .bool true => return some (<- m.fromRow)
  | .bool false | .null => absent
  | other => throw (.conversion (.indicator other.variantName))

def columnValue (m : Model) (r : EnumRegistry) (i : Instance) (index : Nat) : Result Value :=
  match i[index]? with
  | some field => field.write r
  | none => .error (.mapping (.noColumnAt m.name index))

def typedColumn (m : Model) (r : EnumRegistry) (i : Instance) (index : Nat) : Result Typed := do
  let t <- m.table
  match t.columns[index]? with
  | some column => return ⟨<- m.columnValue r i index, column.type⟩
  | none => .error (.mapping (.noColumnAt t.model index))

end Model

/-!
## Rows of chosen fields and shapes
-/

/-- A row of an explicit list of expressions. -/
structure Row where
  values : List Value
deriving Inhabited

namespace Row

def size (r : Row) : Nat := r.values.length

def isEmpty (r : Row) : Bool := r.values.isEmpty

def get (r : Row) (index : Nat) (h : FieldHost) : Result h.Carrier :=
  match r.values[index]? with
  | some v => h.ofValue v
  | none => .error (.conversion (.noFieldAt index))

end Row

/-- A named entry of a shaped row; an absent model has no values. -/
inductive ShapedValue where
  | scalar (v : Value)
  | model (values : Option (List Value))

/-- A row of named models and scalars; of two entries of one name the later one counts. -/
structure ShapedRow where
  entries : List (String × ShapedValue) := []

namespace ShapedRow

def insert (r : ShapedRow) (name : String) (v : ShapedValue) : ShapedRow := ⟨(name, v) :: r.entries⟩

def keyed? (r : ShapedRow) (name : String) : Option ShapedValue :=
  (r.entries.find? (·.1 == name)).map (·.2)

def contains (r : ShapedRow) (name : String) : Bool := (r.keyed? name).isSome

def get (r : ShapedRow) (name : String) (h : FieldHost) : Result h.Carrier :=
  match r.keyed? name with
  | some (.scalar v) => h.ofValue v
  | some (.model _) => .error (.conversion (.entryIsModel name))
  | none => .error (.conversion (.noEntry name))

/-- The instance under a name; none when its row was absent. -/
def model (r : ShapedRow) (name : String) (m : Model) : Result (Option Instance) :=
  match r.keyed? name with
  | some (.model (some values)) => do return some (<- RowReader.run m.fromRow values)
  | some (.model none) => .ok none
  | some (.scalar _) => .error (.conversion (.entryIsScalar name))
  | none => .error (.conversion (.noEntry name))

end ShapedRow

/-- The rows a statement returned and the number of rows it affected. -/
structure ResultSet where
  rows : List (List Value) := []
  affected : Nat := 0
deriving Inhabited

end TypedQuery
