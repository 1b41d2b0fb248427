import TypedQuery.Statement.Basic

/-!
# INSERT

Rows of a model are inserted column by column.  A column may instead take its value from a
subquery or from the key just generated for another model.  The first error of a builder call is
kept, and every later call leaves the builder as it is.
-/

namespace TypedQuery

/-- Where a column's value comes from when it is not part of the rows. -/
inductive InsertSource where
  | subquery (s : Subquery)
  | sequence (parent : Table)

/-- What happens to a row that is already there. -/
inductive OnConflict where
  | nothing
  | update (target assign : List String)

/-- The outcome of an INSERT: affected rows and generated keys. -/
structure Inserted where
  affected : Nat
  keys : List Value

structure Insert where
  table : Result Table
  columns : Option (List Nat) := none
  rows : List (List Typed) := []
  sources : List (Nat × InsertSource) := []
  conflict : Option OnConflict := none
  error : Option Error := none

namespace Insert

def ofModel (m : Model) : Insert :=
  match m.table with
  | .ok t => { table := .ok t }
  | .error e => { table := .error e, error := some e }

/-- Goes on with what a table gives, unless an error is recorded already or comes now. -/
def withTable {α : Type} (i : Insert) (f : Table -> Result α) (use : Insert -> α -> Insert) :
    Insert :=
  match i.error with
  | some _ => i
  | none =>
      match i.table.bind f with
      | .ok value => use i value
      | .error e => { i with error := some e }

/-!
## Builder calls
-/

def into (i : Insert) (names : List String) : Insert :=
  i.withTable (fun t => names.mapM fun name => do return (<- t.requireColumn name).1)
    fun i columns => { i with columns := some columns }

def row (i : Insert) (enums : EnumRegistry) (m : Model) (fields : Instance) : Insert :=
  i.withTable
    (fun t => t.columns.zipIdx.mapM fun (column, index) => do
      return ⟨<- m.columnValue enums fields index, column.type⟩)
    fun i values => { i with rows := i.rows ++ [values] }

def addRows (i : Insert) (enums : EnumRegistry) (m : Model) (instances : List Instance) : Insert :=
  instances.foldl (fun i fields => i.row enums m fields) i

/-- Gives a column a source, taking the place of an earlier one. -/
def setSource (i : Insert) (index : Nat) (source : InsertSource) : Insert :=
  { i with sources := i.sources.filter (·.1 ≠ index) ++ [(index, source)] }

/-- Takes a column from a subquery that projects a single value. -/
def valueFromSubquery (i : Insert) (column : String) (s : Subquery) : Insert :=
  i.withTable
    (fun t => do
      let (index, descriptor) <- t.requireColumn column
      match s.projected with
      | none => throw (.compile .subqueryValue)
      | some projected =>
          if descriptor.type.comparable projected then return index
          else throw (.compile (.unstorable projected descriptor.type)))
    fun i index => i.setSource index (.subquery s)

/-- Takes a column from the key just generated for a parent model. -/
def valueFromSequence (i : Insert) (column : String) (parent : Model) : Insert :=
  i.withTable
    (fun t => do
      let (index, _) <- t.requireColumn column
      let parent <- parent.table
      if parent.primaryKey?.isSome then return (index, parent)
      else throw (.mapping (.noKeySequence parent.model)))
    fun i (index, parent) => i.setSource index (.sequence parent)

def onConflictDoNothing (i : Insert) : Insert := { i with conflict := some .nothing }

/-- Overwrites the assigned columns of a row that conflicts on the target columns. -/
def onConflictUpdate (i : Insert) (target assign : List String) : Insert :=
  let names (t : Table) (list : List String) : Result (List String) :=
    list.mapM fun name => do return (<- t.requireColumn name).2.name
  i.withTable (fun t => do return (<- names t target, <- names t assign))
    fun i (target, assign) => { i with conflict := some (.update target assign) }

/-!
## Building
-/

/-- The expression of a source. -/
def sourceValue : InsertSource -> Result Fragment
  | .subquery s => do return (<- s.expression).query
  | .sequence parent =>
      match parent.primaryKey? with
      | none => .error (.mapping (.noKey parent.model))
      | some (_, key) =>
          .ok (Fragment.empty.text
            ("currval(pg_get_serial_sequence(" ++ Text.quoteLiteral parent.qualifiedName ++ ", " ++
              Text.quoteLiteral key.name ++ "))"))

/-- The columns that take their values from the rows. -/
def plainColumns (i : Insert) (t : Table) : List Nat :=
  (i.columns.getD t.insertable).filter fun index => !i.sources.any (·.1 == index)

def columnName (t : Table) (index : Nat) : String :=
  match t.columns[index]? with
  | some c => c.quoted
  | none => ""

def tuple (plain : List Nat) (sources : List Fragment) (row : List Typed) : List Fragment :=
  plain.map (fun index => Fragment.empty.value ((row[index]?).getD .null)) ++ sources

def tuples (query : Fragment) (plain : List Nat) (sources : List Fragment) :
    List (List Typed) -> Fragment
  | [] => query
  | [row] => ((query.text "(").joined (tuple plain sources row) ",").text ")"
  | row :: rest =>
      tuples ((((query.text "(").joined (tuple plain sources row) ",").text ")").text ",") plain
        sources rest

def conflictClause : OnConflict -> String
  | .nothing => " ON CONFLICT DO NOTHING"
  | .update target assign =>
      let target := " ON CONFLICT (" ++ ",".intercalate (target.map Text.quoteIdent) ++ ")"
      if assign.isEmpty then target ++ " DO NOTHING"
      else
        let set (name : String) : String :=
          Text.quoteIdent name ++ " = EXCLUDED." ++ Text.quoteIdent name
        target ++ " DO UPDATE SET " ++ ", ".intercalate (assign.map set)

/-- The output is the number of rows and the keys they were given. -/
def build (i : Insert) : Result (Statement Inserted) := do
  if let some e := i.error then throw e
  let t <- i.table
  if i.rows.isEmpty then throw (.compile (.noRows t.name))
  let plain := i.plainColumns t
  let names := (plain ++ i.sources.map (·.1)).map (columnName t)
  let sources <- i.sources.mapM fun (_, source) => sourceValue source
  let head := ((Fragment.empty.text "INSERT INTO ").table .root t).text
    ("(" ++ ",".intercalate names ++ ") VALUES ")
  let query := tuples head plain sources i.rows
  let query :=
    match i.conflict with
    | some conflict => query.text (conflictClause conflict)
    | none => query
  let key := t.primaryKey?
  let query :=
    match key with
    | some (_, key) => query.text (" RETURNING " ++ key.quoted)
    | none => query
  return ⟨(Frame.mk query (.single .root t) false).framed, fun result =>
    .ok ⟨result.affected, if key.isSome then result.rows.filterMap (·.head?) else []⟩⟩

end Insert

end TypedQuery
