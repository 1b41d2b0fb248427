import TypedQuery.Statement.Basic

/-!
# SELECT

A query over a model with optional left joins.  The first table has slot `t0` and each join the
next one.  Beside its clauses a query carries the reading of its rows, which takes exactly the
columns that are projected.  The first error of a builder call is kept until the query is built.
-/

namespace TypedQuery

inductive Projection where
  | columns (slot : Slot)
  /-- Whether the table matched, then every column of it. -/
  | nullable (slot : Slot)
  | expr (e : Expr)

inductive ShapeEntry where
  | model (slot : Slot)
  | scalar (e : Expr)

structure Select (α : Type) where
  tables : List (Slot × Table)
  joins : List Expr := []
  filters : List Expr := []
  projection : List Projection
  orderBy : List OrderItem := []
  limit : Option Nat := none
  offset : Option Nat := none
  distinct : Bool := false
  decoder : RowM α
  calls : CallRegistry := CallRegistry.builtin
  error : Option Error := none

namespace Select

variable {α β : Type}

def ofModel (m : Model) : Select Instance :=
  match m.table with
  | .ok t => { tables := [(.root, t)], projection := [.columns .root], decoder := m.fromRow }
  | .error e => { tables := [], projection := [], decoder := m.fromRow, error := some e }

/-- Keeps the first error. -/
def fail (s : Select α) (e : Error) : Select α := { s with error := s.error.or (some e) }

/-- The same query with another projection and reading. -/
def reshape (s : Select α) (projection : List Projection) (decoder : RowM β) : Select β :=
  { tables := s.tables, joins := s.joins, filters := s.filters, projection
    orderBy := s.orderBy, limit := s.limit, offset := s.offset, distinct := s.distinct
    decoder, calls := s.calls, error := s.error }

def map (f : α -> β) (s : Select α) : Select β :=
  s.reshape s.projection do return f (<- s.decoder)

/-!
## Builder calls
-/

def withRegistry (s : Select α) (calls : CallRegistry) : Select α := { s with calls }

def filter (s : Select α) (predicate : Expr) : Select α :=
  { s with filters := s.filters ++ [predicate] }

def exclude (s : Select α) (predicate : Expr) : Select α := s.filter predicate.not

/-- Joins a model in the next slot; rows without a match have none of it. -/
def leftJoin (s : Select α) (m : Model) (on : Expr) : Select (α × Option Instance) :=
  let slot := Slot.ofPosition s.tables.length
  let joined : Select α :=
    match m.table with
    | .ok t =>
        { s with
          tables := s.tables ++ [(slot, t)]
          joins := s.joins ++ [on]
          projection := s.projection ++ [.nullable slot] }
    | .error e => s.fail e
  joined.reshape joined.projection do
    let left <- s.decoder
    let right <- m.readNullable
    return (left, right)

def scalar (s : Select α) (h : FieldHost) (e : Expr) : Select h.Carrier :=
  s.reshape [.expr e] h.read

def fields (s : Select α) (es : List Expr) : Select Row :=
  s.reshape (es.map .expr) do return ⟨<- RowReader.take es.length⟩

def table (s : Select α) (slot : Slot) : Result Table := (Scope.mk s.tables).table slot

/-- How an entry of a shape is read; a model has so many columns. -/
inductive ShapeReading where
  | model (columns : Nat)
  | scalar

def ShapeReading.read : ShapeReading -> RowM ShapedValue
  | .scalar => do return .scalar (<- RowReader.next)
  | .model columns => do
      let present : Option Bool <- RowReader.read (.option (.base .bool))
      if present.getD false then return .model (some (<- RowReader.take columns))
      else
        RowReader.skip columns
        return .model none

/-- The projection and the readings of a shape, and the first error. -/
def shapeParts (s : Select α) :
    List (String × ShapeEntry) -> List Projection × List (String × ShapeReading) × Option Error
  | [] => ([], [], none)
  | (name, entry) :: rest =>
      let (projection, readings, error) := s.shapeParts rest
      match entry with
      | .scalar e => (.expr e :: projection, (name, .scalar) :: readings, error)
      | .model slot =>
          match s.table slot with
          | .ok t =>
              (.nullable slot :: projection, (name, .model t.columns.length) :: readings, error)
          | .error e => (projection, readings, some e)

def shape (s : Select α) (entries : List (String × ShapeEntry)) : Select ShapedRow :=
  let (projection, readings, error) := s.shapeParts entries
  let shaped : Select ShapedRow :=
    s.reshape projection do
      readings.foldlM
        (fun (row : ShapedRow) (name, reading) => do return row.insert name (<- reading.read)) {}
  match error with
  | some e => shaped.fail e
  | none => shaped

def order (s : Select α) (item : OrderItem) : Select α := { s with orderBy := s.orderBy ++ [item] }

def withLimit (s : Select α) (n : Nat) : Select α := { s with limit := some n }

def withOffset (s : Select α) (n : Nat) : Select α := { s with offset := some n }

def distinctRows (s : Select α) : Select α := { s with distinct := true }

/-!
## Building
-/

def check (s : Select α) : Result Unit :=
  match s.error with
  | some e => .error e
  | none => .ok ()

/-- A compiler for the first so many slots. -/
def compiler (s : Select α) (slots : Nat) : Compiler :=
  { scope := ⟨s.tables.take slots⟩, calls := s.calls }

/-- A single table is written by its own name, several by their slots. -/
def aliases (s : Select α) : AliasMap :=
  match s.tables with
  | [(slot, t)] => .single slot t
  | tables => .positional tables

def framed (s : Select α) (body : Fragment) : Fragment := (Frame.mk body s.aliases false).framed

def columns (slot : Slot) (t : Table) : List Fragment :=
  t.columns.map fun c => Fragment.empty.column slot c.name

/-- True when the table of a slot matched: its key, or failing that any column, is not NULL. -/
def indicator (slot : Slot) (t : Table) : Fragment :=
  match t.primaryKey? with
  | some (_, key) => (Fragment.empty.column slot key.name).text " IS NOT NULL"
  | none => ((Fragment.empty.text "NOT ((").joined (columns slot t) ", ").text ") IS NULL)"

/-- The columns of one part of the projection, and the type of an expression. -/
def projected (compiler : Compiler) : Projection -> Result (List Fragment × Option SqlType)
  | .columns slot => do return (columns slot (<- compiler.scope.table slot), none)
  | .nullable slot => do
      let t <- compiler.scope.table slot
      return (indicator slot t :: columns slot t, none)
  | .expr e => do
      let compiled <- compiler.compile e
      return ([compiled.query], some compiled.type)

/-- The LEFT JOIN clauses; a condition may mention its own table and those before it. -/
def joinClauses (s : Select α) (query : Fragment) :
    Nat -> List ((Slot × Table) × Expr) -> Result Fragment
  | _, [] => .ok query
  | slots, ((slot, t), on) :: rest => do
      let condition <- (s.compiler slots).compilePredicate on
      let query := ((query.text " LEFT JOIN ").table slot t).text " ON ("
      s.joinClauses ((query.nested condition.query).text ")") (slots + 1) rest

def clauses (s : Select α) (head : Fragment) : Result Fragment :=
  match s.tables with
  | [] => .error (.mapping (.noTable "select"))
  | (root, t) :: rest => do
      let query <- s.joinClauses ((head.text " FROM ").table root t) 2 (rest.zip s.joins)
      query.filtered (s.compiler s.tables.length) s.filters

def ordered (s : Select α) (query : Fragment) : Result Fragment := do
  let compiler := s.compiler s.tables.length
  let items <- s.orderBy.mapM fun item => do
    return (Fragment.empty.nested (<- compiler.compile item.expr).query).text item.keyword
  let query := if items.isEmpty then query else (query.text " ORDER BY ").joined items ", "
  let query :=
    match s.limit with
    | some n => query.text s!" LIMIT {n}"
    | none => query
  return match s.offset with
    | some n => query.text s!" OFFSET {n}"
    | none => query

/-- The whole query, and the type of its column if it projects a single expression. -/
def body (s : Select α) : Result (Fragment × Option SqlType) := do
  s.check
  let parts <- s.projection.mapM (projected (s.compiler s.tables.length))
  let items := parts.flatMap (·.1)
  if items.isEmpty then throw (.compile .nothingToProject)
  let head := (Fragment.empty.text (if s.distinct then "SELECT DISTINCT " else "SELECT ")).joined
    items ","
  let query <- s.ordered (<- s.clauses head)
  let single :=
    match parts with
    | [(_, type)] => type
    | _ => none
  return (query, single)

def build (s : Select α) : Result (Statement (List α)) := do
  let (body, _) <- s.body
  return ⟨s.framed body, fun result => result.rows.mapM (RowReader.run s.decoder)⟩

/-- The number of rows; what DISTINCT, LIMIT and OFFSET leave is counted from a derived table. -/
def count (s : Select α) : Result (Statement Int64) := do
  let query <-
    if s.distinct || s.limit.isSome || s.offset.isSome then do
      let (body, _) <- s.body
      pure (((Fragment.empty.text "SELECT COUNT(*) FROM (").nested body).text ") AS counted")
    else do
      s.check
      s.clauses (Fragment.empty.text "SELECT COUNT(*)")
  return ⟨s.framed query, fun result =>
    match result.rows with
    | [] => .error (.conversion .countWithoutRow)
    | row :: _ => RowReader.run (RowReader.read (.base .int64)) row⟩

/-- The query frozen for use inside another statement. -/
def toSubquery (s : Select α) : Result Subquery := do
  let (body, single) <- s.body
  return ⟨⟨body, s.aliases, false⟩, single⟩

end Select

end TypedQuery
