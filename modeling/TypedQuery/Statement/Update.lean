import TypedQuery.Statement.Basic

/-!
# UPDATE

Assignments are compiled as they are added.  Every column has at most one pending expression; the
list and JSON helpers build on it, so that several changes of one column compose.  The first
error of a builder call is kept, and every later call leaves the assignments as they are.
-/

namespace TypedQuery

structure Update where
  table : Result Table
  assignments : List (Nat × TypedFragment) := []
  filters : List Expr := []
  calls : CallRegistry := CallRegistry.builtin
  error : Option Error := none

namespace Update

def ofModel (m : Model) : Update :=
  match m.table with
  | .ok t => { table := .ok t }
  | .error e => { table := .error e, error := some e }

def isEmpty (u : Update) : Bool := u.assignments.isEmpty

def fail (u : Update) (e : Error) : Update := { u with error := u.error.or (some e) }

def compiler (u : Update) (t : Table) : Compiler := { scope := .ofTable t, calls := u.calls }

/-- The expression a column is to be set to, if any. -/
def pending? (u : Update) (index : Nat) : Option TypedFragment :=
  (u.assignments.find? (·.1 = index)).map (·.2)

/-- Puts an assignment in the place of an earlier one, or at the end. -/
def assigned (index : Nat) (value : TypedFragment) :
    List (Nat × TypedFragment) -> List (Nat × TypedFragment)
  | [] => [(index, value)]
  | (i, v) :: rest =>
      if i = index then (i, value) :: rest else (i, v) :: assigned index value rest

/-- Replaces the pending expression of a column by what `make` builds on it. -/
def modify (u : Update) (column : String)
    (make : Compiler -> Column -> TypedFragment -> Result TypedFragment) : Update :=
  match u.error with
  | some _ => u
  | none =>
      let outcome : Result (Nat × TypedFragment) := do
        let t <- u.table
        let (index, descriptor) <- t.requireColumn column
        let current := (u.pending? index).getD
          ⟨Fragment.empty.column .root descriptor.name, descriptor.type⟩
        return (index, <- make (u.compiler t) descriptor current)
      match outcome with
      | .ok (index, value) => { u with assignments := assigned index value u.assignments }
      | .error e => u.fail e

/-!
## Builder calls
-/

def withRegistry (u : Update) (calls : CallRegistry) : Update := { u with calls }

def filter (u : Update) (predicate : Expr) : Update :=
  { u with filters := u.filters ++ [predicate] }

def exclude (u : Update) (predicate : Expr) : Update := u.filter predicate.not

def set (u : Update) (column : String) (value : Expr) : Update :=
  u.modify column fun compiler descriptor _ => compiler.compileAs descriptor.type value

def setWith (u : Update) (column : String) (value : Expr -> Expr) : Update :=
  u.modify column fun compiler descriptor current =>
    compiler.compileAs descriptor.type (value (.compiled current))

/-- The item type of an array column. -/
def requireList (column : Column) : Result SqlType :=
  match column.type.item? with
  | some item => .ok item
  | none => .error (.compile (.notArray column.name column.type))

def addToList (u : Update) (column : String) (values : Expr) : Update :=
  u.modify column fun compiler descriptor current => do
    let _ <- requireList descriptor
    let values <- compiler.compileAs descriptor.type values
    return ⟨((((Fragment.empty.text "array_cat(").nested current.query).text ", ").nested
      values.query).text ")", descriptor.type⟩

/-- Appends the values that an array column does not hold yet. -/
def addToListDistinct (u : Update) (column : String) (values : Expr) : Update :=
  u.modify column fun compiler descriptor current => do
    let _ <- requireList descriptor
    let values <- compiler.compileAs descriptor.type values
    let added := ((Fragment.empty.text "array_cat(").nested current.query).text
      ", ARRAY(SELECT e FROM unnest("
    let absent := (added.nested values.query).text ") AS e WHERE NOT (e = ANY(COALESCE("
    return ⟨(absent.nested current.query).text ", '\x7b\x7d')))))", descriptor.type⟩

def removeFromList (u : Update) (column : String) (value : Expr) : Update :=
  u.modify column fun compiler descriptor current => do
    let item <- requireList descriptor
    let value <- compiler.compileAs item value
    return ⟨((((Fragment.empty.text "array_remove(").nested current.query).text ", ").nested
      value.query).text ")", descriptor.type⟩

def removeAllFromList (u : Update) (column : String) (values : Expr) : Update :=
  u.modify column fun compiler descriptor current => do
    let _ <- requireList descriptor
    let values <- compiler.compileAs descriptor.type values
    let kept := ((Fragment.empty.text "ARRAY(SELECT e FROM unnest(").nested current.query).text
      ") AS e WHERE e <> ALL("
    return ⟨(kept.nested values.query).text "))", descriptor.type⟩

/-!
## JSON helpers
-/

/-- The name of the updated column a path starts at, and the JSON steps after it. -/
def jsonTarget (u : Update) (path : Expr) : Result (String × List JsonStep) := do
  match path with
  | .field steps =>
      let t <- u.table
      let resolved <- (u.compiler t).resolve steps
      match resolved.column with
      | some (slot, index) =>
          if slot = .root then
            match t.columns[index]? with
            | some column => return (column.name, resolved.jsonPath)
            | none => throw (.compile .jsonHelperColumn)
          else throw (.compile .jsonHelperColumn)
      | none => throw (.compile .jsonHelperColumn)
  | _ => throw (.compile .jsonHelperPath)

def modifyJson (u : Update) (path : Expr)
    (make : Compiler -> TypedFragment -> List JsonStep -> Result TypedFragment) : Update :=
  match u.error with
  | some _ => u
  | none =>
      match u.jsonTarget path with
      | .error e => u.fail e
      | .ok (column, steps) =>
          u.modify column fun compiler descriptor current =>
            if descriptor.type.isJson then make compiler current steps
            else .error (.compile (.notJson descriptor.name descriptor.type))

/-- A JSON value; a NULL without a type is the JSON null. -/
def jsonValue (compiler : Compiler) (value : Expr) : Result TypedFragment := do
  let compiled <- compiler.compileAs (.json none) value
  if compiled.type = .null then return ⟨Fragment.empty.text "'null'::jsonb", .json none⟩
  else return compiled

/-- The steps as an array of texts. -/
def pathArray (steps : List JsonStep) : Fragment :=
  let item (query : Fragment) (entry : JsonStep × Nat) : Fragment :=
    let query := if entry.2 = 0 then query else query.text ","
    query.value ⟨.text entry.1.asText, .text⟩
  (steps.zipIdx.foldl item (Fragment.empty.text "ARRAY[")).text "]::text[]"

/-- Sets the value at a path; a path without steps replaces the document. -/
def jsonSet (u : Update) (path value : Expr) : Update :=
  u.modifyJson path fun compiler current steps => do
    let value <- jsonValue compiler value
    if steps.isEmpty then return value
    else
      let target := ((Fragment.empty.text "jsonb_set(COALESCE(").nested current.query).text
        ", '\x7b\x7d'::jsonb), "
      return ⟨((((target.nested (pathArray steps)).text ", ").nested value.query).text ", true)"),
        .json none⟩

/-- Appends a value to the array at a path. -/
def jsonAppend (u : Update) (path value : Expr) : Update :=
  u.modifyJson path fun compiler current steps => do
    let value <- jsonValue compiler value
    let target := ((Fragment.empty.text "jsonb_append_at_path(COALESCE(").nested
      current.query).text ", '\x7b\x7d'::jsonb), "
    return ⟨(((target.nested (pathArray steps)).text ", ").nested value.query).text ")", .json none⟩

/-- Removes the elements equal to a value from the array at a path. -/
def jsonRemoveValue (u : Update) (path value : Expr) : Update :=
  u.modifyJson path fun compiler current steps => do
    let value <- jsonValue compiler value
    let elements :=
      if steps.isEmpty then current.query
      else ((((Fragment.empty.text "(").nested current.query).text " #> ").nested
        (pathArray steps)).text ")"
    let each := Fragment.empty.text
      "(SELECT COALESCE(jsonb_agg(e), '[]'::jsonb) FROM jsonb_array_elements("
    let kept := (((each.nested elements).text ") AS e WHERE e <> ").nested value.query).text ")"
    if steps.isEmpty then return ⟨kept, .json none⟩
    else
      let target := ((Fragment.empty.text "jsonb_set(").nested current.query).text ", "
      return ⟨(((target.nested (pathArray steps)).text ", ").nested kept).text ")", .json none⟩

/-!
## Building
-/

/-- The output is the number of updated rows. -/
def build (u : Update) : Result (Statement Nat) := do
  if let some e := u.error then throw e
  let t <- u.table
  if u.assignments.isEmpty then throw (.emptyMutation t.name)
  let sets := u.assignments.map fun (index, value) =>
    let name :=
      match t.columns[index]? with
      | some c => c.quoted
      | none => ""
    (Fragment.empty.text (name ++ " = ")).nested value.query
  let query := (((Fragment.empty.text "UPDATE ").table .root t).text " SET ").joined sets ", "
  let query <- query.filtered (u.compiler t) u.filters
  return ⟨(Frame.mk query (.single .root t) true).framed, fun result => .ok result.affected⟩

end Update

end TypedQuery
