import TypedQuery.Row.Reader
import TypedQuery.Schema.Registry

/-!
# Declared models

A model may be declared field by field.  What a declaration leaves out is derived: the name of the
table from the name of the model, the name of a column from its field, the type of a column from
the host type, and a column of an optional field accepts NULL.
-/

namespace TypedQuery

structure FieldDeclaration where
  field : String
  host : HostType
  column : Option String := none
  type : Option String := none
  primaryKey : Bool := false
  autoIncrement : Bool := false
  nullable : Bool := false

structure ModelDeclaration where
  name : String
  table : Option String := none
  schema : Option String := none
  fields : List FieldDeclaration

/-- A name in lowercase, with an underscore before each capital but the first character. -/
def snakeCase (name : String) : String :=
  let written (c : Char) (i : Nat) : List Char :=
    if c.isUpper then (if i > 0 then ['_', c.toLower] else [c.toLower]) else [c]
  String.ofList (name.toList.zipIdx.flatMap fun (c, i) => written c i)

namespace FieldDeclaration

def isOption : HostType -> Bool
  | .option _ => true
  | _ => false

/-- The declared type of the column, or the type of the host type. -/
def sqlType (enums : EnumRegistry) (f : FieldDeclaration) : Result SqlType :=
  match f.type with
  | none => f.host.sqlType enums
  | some declaration =>
      match SqlType.ofDeclaration declaration with
      | .ok t => .ok t
      | .error name => .error (.conversion (.unknownType name))

def toColumn (enums : EnumRegistry) (f : FieldDeclaration) : Result Column := do
  let type <- f.sqlType enums
  return {
    field := f.field, name := f.column.getD f.field, type
    primaryKey := f.primaryKey, autoIncrement := f.autoIncrement
    nullable := f.nullable || isOption f.host }

end FieldDeclaration

namespace ModelDeclaration

def describe (enums : EnumRegistry) (d : ModelDeclaration) : Result Table := do
  let columns <- d.fields.mapM (·.toColumn enums)
  return { model := d.name, name := d.table.getD (snakeCase d.name), schema := d.schema, columns }

/-- The model of a declaration, described in a registry of its own. -/
def toModel (enums : EnumRegistry) (d : ModelDeclaration) : Model where
  name := d.name
  table := ({} : Registry).complete (d.describe enums)
  hosts := d.fields.map fun f => .host f.host

end ModelDeclaration

end TypedQuery
