import TypedQuery.Exchange.Expr
import TypedQuery.Exchange.Host
import TypedQuery.Schema.Registry

/-!
# Table descriptors as documents

What a document of a table leaves out is filled in: a model without a name is `Model`, a field
has the name of its column, flags are false, and a field without a host type is read as it is.
-/

namespace TypedQuery

namespace Column

def toJson (c : Column) : Json :=
  .ofMembers [("field", .string c.field), ("name", .string c.name), ("ty", c.type.toJson),
    ("pk", .bool c.primaryKey), ("auto", .bool c.autoIncrement), ("nullable", .bool c.nullable),
    ("quoted", .string c.quoted)]

def ofJson? (j : Json) : Option Column := do
  let flag (name : String) : Option Bool :=
    (Json.optionOf? Json.bool? (j.entry name)).map (·.getD false)
  let name <- (j.entry "name").text?
  let field <- Json.optionOf? Json.text? (j.entry "field")
  return {
    field := field.getD name, name, type := <- SqlType.ofJson? (j.entry "ty")
    primaryKey := <- flag "pk", autoIncrement := <- flag "auto", nullable := <- flag "nullable" }

end Column

namespace Table

def members (t : Table) : List (String × Json) :=
  [("model", .string t.model), ("table", .string t.name), ("schema", .ofOption .string t.schema),
    ("columns", .array (t.columns.map Column.toJson))]

def toJson (t : Table) : Json := .ofMembers t.members

def ofJson? (j : Json) : Option Table := do
  let model <- Json.optionOf? Json.text? (j.entry "model")
  return {
    model := model.getD "Model", name := <- (j.entry "table").text?
    schema := <- Json.optionOf? Json.text? (j.entry "schema")
    columns := <- Json.listOf? Column.ofJson? (j.entry "columns") }

end Table

/-- Slots with their tables; `table?` says how a table is given. -/
def slotTablesOfJson? (table? : Json -> Option Table) : Json -> Option (List (Slot × Table)) :=
  Json.listOf? fun
    | .array [slot, t] => do return (<- Slot.ofJson? slot, <- table? t)
    | _ => none

def AliasMap.ofJson? (table? : Json -> Option Table) : Json -> Option AliasMap
  | .null => some .empty
  | .array [.string "single", slot, t] => do return .single (<- Slot.ofJson? slot) (<- table? t)
  | .array [.string "positional", slots] => (slotTablesOfJson? table? slots).map .positional
  | .array [.string "bind", .array entries] =>
      entries.foldlM (fun map entry => do
        match entry with
        | .array [slot, .string name, t] =>
            return map.bind (<- Slot.ofJson? slot) name (<- table? t)
        | _ => none) AliasMap.empty
  | _ => none

/-- The model of a table's document, described in a registry. -/
def Model.ofJson? (known : List (String × HostBase)) (r : Registry) (j : Json) : Option Model := do
  let t <- Table.ofJson? j
  return {
    name := t.model, table := r.complete (.ok t)
    hosts := <- (j.entry "columns").listOf? fun column =>
      FieldHost.ofJson? known (column.entry "host") }

end TypedQuery
