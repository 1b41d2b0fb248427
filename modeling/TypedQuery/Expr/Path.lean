import TypedQuery.Expr.Calls

/-!
# Field paths

A path starts at a table slot, or at the first table of the scope, names a column, and goes on
through JSON steps and pseudo-properties.  Beside the fragment it keeps the column it started at
and the JSON steps taken, until a pseudo-property makes a new value of them.
-/

namespace TypedQuery

/-- The table slots an expression may mention; of two entries for a slot the first counts. -/
structure Scope where
  tables : List (Slot × Table) := []

namespace Scope

def empty : Scope := {}

def ofTable (t : Table) : Scope := ⟨[(.root, t)]⟩

def root (s : Scope) : Result Slot :=
  match s.tables with
  | (slot, _) :: _ => .ok slot
  | [] => .error (.mapping .noTableInScope)

def table (s : Scope) (slot : Slot) : Result Table :=
  match s.tables.find? (·.1 = slot) with
  | some (_, t) => .ok t
  | none => .error (.mapping (.undeclaredSlot slot.name))

end Scope

inductive JsonStep where
  | key (key : String)
  | index (n : Int32)
deriving DecidableEq

/-- The step as it is written in a path of texts. -/
def JsonStep.asText : JsonStep -> String
  | key k => k
  | index n => toString n.toInt

structure ResolvedPath where
  expr : TypedFragment
  /-- The slot and the index of the column, unless a pseudo-property followed. -/
  column : Option (Slot × Nat)
  jsonPath : List JsonStep

namespace ResolvedPath

def step (calls : CallRegistry) (r : ResolvedPath) : PathStep -> Result ResolvedPath
  | .table _ => .error (.compile .tableNotFirst)
  | .column name => .error (.compile (.columnAfterColumn name))
  | .key key asText => do
      let expr <- r.expr.jsonStep ⟨.text key, .text⟩ asText
      return { r with expr, jsonPath := r.jsonPath ++ [.key key] }
  | .index n asText => do
      let expr <- r.expr.jsonStep ⟨.int n, .integer⟩ asText
      return { r with expr, jsonPath := r.jsonPath ++ [.index n] }
  | .derived name =>
      match calls.accessor? r.expr.type.kind name with
      | none => .error (.compile (.noProperty name r.expr.type))
      | some accessor => do
          let expr <- accessor r.expr
          return { expr, column := none, jsonPath := [] }

end ResolvedPath

/-- The slot a path starts at, and the steps after it. -/
def startOfPath (scope : Scope) : List PathStep -> Result (Slot × List PathStep)
  | .table slot :: rest => .ok (slot, rest)
  | path => do return (<- scope.root, path)

/-- The column that the steps after the slot must begin with. -/
def columnOfPath (slot : Slot) (t : Table) :
    List PathStep -> Result (ResolvedPath × List PathStep)
  | .column name :: rest => do
      let (index, column) <- t.requireColumn name
      let expr : TypedFragment := ⟨Fragment.empty.column slot column.name, column.type⟩
      return (⟨expr, some (slot, index), []⟩, rest)
  | .table _ :: _ => .error (.compile .tableNotFirst)
  | _ => .error (.compile .columnExpected)

def resolvePath (scope : Scope) (calls : CallRegistry) (path : List PathStep) :
    Result ResolvedPath := do
  let (slot, rest) <- startOfPath scope path
  let t <- scope.table slot
  let (start, rest) <- columnOfPath slot t rest
  rest.foldlM (ResolvedPath.step calls) start

end TypedQuery
