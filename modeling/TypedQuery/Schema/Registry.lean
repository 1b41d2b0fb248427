import TypedQuery.Schema.Table

/-!
# Registry of described models

A model is described once.  Its descriptor is validated, takes the default schema of that moment
if it names none, and is never changed again.  A description that fails leaves no trace.
-/

namespace TypedQuery

/-- The schema of models that name none, unless it was changed. -/
def publicSchema : String := "public"

/-- The tables in the order in which they were described, and where the table of each model stands
among them. -/
structure Registry where
  defaultSchema : String := publicSchema
  tables : List Table := []
  index : List (String × Nat) := []

namespace Registry

def size (r : Registry) : Nat := r.tables.length

def isEmpty (r : Registry) : Bool := r.tables.isEmpty

def position? (r : Registry) (model : String) : Option Nat :=
  (r.index.find? (·.1 == model)).map (·.2)

def lookup? (r : Registry) (model : String) : Option Table :=
  (r.position? model).bind fun position => r.tables[position]?

/-- Changes the schema of models that are described from now on. -/
def setDefaultSchema (r : Registry) (schema : String) : Registry :=
  { r with defaultSchema := schema }

/-- The table of a description, if it is valid. -/
def validated (description : Result Table) : Result Table := do
  let t <- description
  t.validate
  return t

/-- A table with the schema that it names, or with the default one. -/
def qualified (r : Registry) (t : Table) : Table :=
  { t with schema := some (t.schema.getD r.defaultSchema) }

/-- A description made into a descriptor: valid, and with a schema. -/
def complete (r : Registry) (description : Result Table) : Result Table := do
  return r.qualified (<- validated description)

/-- Puts a table behind all others and remembers where it stands. -/
def store (r : Registry) (model : String) (t : Table) : Registry :=
  { r with tables := r.tables ++ [t], index := (model, r.tables.length) :: r.index }

/-- Describes a model with the registry locked.  Another call may have described it since it was
looked up, so it is looked up again. -/
def describe (r : Registry) (model : String) (description : Result Table) :
    Result Table × Registry :=
  match r.lookup? model with
  | some t => (.ok t, r)
  | none =>
      match r.complete description with
      | .ok t => (.ok t, r.store model t)
      | .error e => (.error e, r)

/-- The descriptor of a model, described now if it was not before. -/
def table (r : Registry) (model : String) (description : Result Table) :
    Result Table × Registry :=
  match r.lookup? model with
  | some t => (.ok t, r)
  | none => r.describe model description

end Registry

end TypedQuery
