import TypedQuery.Json.Reader
import TypedQuery.Proofs.Session.Routine
import TypedQuery.Proofs.Statement.HelperTree

/-!
# What columns hold after an update

The pending expression of a column is written in the frames of the update, read by the server, and
evaluated in the row as it was before.  What it gives does not depend on how it is written.
-/

namespace TypedQuery

open Server

def Rendered.readQuery? (conforming : Bool) (rendered : Rendered) : Option Tree :=
  Server.readQuery? conforming rendered.env rendered.sql

namespace Table

def row (t : Table) (stored : String -> Value) : Columns := fun name =>
  (t.columns.find? (·.name = name)).map fun column => (column.type.onServer, stored name)

end Table

namespace Engine

variable (engine : Engine)

/-- The value of an expression of an UPDATE in a row. -/
def evaluate? (t : Table) (mode : RenderMode) (columns : Columns) (type : ServerType)
    (f : Fragment) : Option Value :=
  ((f.renderIn mode t.ownScopes).readQuery? engine.conforming).bind fun tree =>
    tree.denote engine (Bootstrap.routines engine) columns type

/-- The expression is read as the tree, however it is written. -/
def Reads (t : Table) (f : Fragment) (tree : Tree) : Prop :=
  forall env, Reader.Yields ⟨engine.conforming, env, t.ownScopes⟩ f tree

/-- The expression has the value, however it is written. -/
def Gives (t : Table) (columns : Columns) (type : ServerType) (f : Fragment) (v : Value) : Prop :=
  exists tree, engine.Reads t f tree ∧
    tree.denote engine (Bootstrap.routines engine) columns type = some v

variable {engine} {t : Table} {f : Fragment} {mode : RenderMode} {columns : Columns}
  {type : ServerType}

theorem Reads.evaluate?_eq {tree : Tree} (h : engine.Reads t f tree)
    (hmode : mode ≠ .bound .atSign) :
    engine.evaluate? t mode columns type f =
      tree.denote engine (Bootstrap.routines engine) columns type := by
  have hwritten := writtenAs_renderIn f hmode t.ownScopes engine.conforming
  have hread := (h _ _ hwritten).readQuery?
  rw [evaluate?, Rendered.readQuery?, hread, Option.bind_some]

theorem Gives.evaluate?_eq {v : Value} (h : engine.Gives t columns type f v)
    (hmode : mode ≠ .bound .atSign) : engine.evaluate? t mode columns type f = some v := by
  rcases h with ⟨tree, hreads, hvalue⟩
  rw [hreads.evaluate?_eq hmode, hvalue]

def plain : Engine where
  conforming := true
  clock := .cut
  input type text :=
    if type = .text then some (.text text)
    else if type = .jsonb then (Json.ofText? text).map .json
    else none
  document
    | .json d => some d
    | .text text => some (.string text)
    | .bool b => some (.bool b)
    | .int n => some (.ofInt n.toInt)
    | _ => none
  input_text _ := rfl
  input_null := rfl
  input_array := rfl
  input_object := rfl

end Engine

/-- The update has no error, and what is pending for the column gives the value. -/
structure Update.Holds (u : Update) (engine : Engine) (t : Table) (columns : Columns) (index : Nat)
    (column : Column) (v : Value) : Prop where
  error : u.error = none
  table : u.table = .ok t
  gives : engine.Gives t columns column.type.onServer (u.current index column).query v

namespace Update

variable {u : Update} {engine : Engine} {t : Table} {columns : Columns} {index : Nat}
  {column : Column}

def after? (u : Update) (engine : Engine) (t : Table) (mode : RenderMode) (columns : Columns)
    (index : Nat) (column : Column) : Option Value :=
  engine.evaluate? t mode columns column.type.onServer (u.current index column).query

theorem Holds.after?_eq {v : Value} (h : u.Holds engine t columns index column v)
    {mode : RenderMode} (hmode : mode ≠ .bound .atSign) :
    u.after? engine t mode columns index column = some v :=
  h.gives.evaluate?_eq hmode

/-- A column that nothing is pending for keeps its value. -/
theorem holds_of_untouched (herror : u.error = none) (ht : u.table = .ok t)
    (huntouched : u.pending? index = none) {v : Value}
    (hvalue : columns column.name = some (column.type.onServer, v)) :
    u.Holds engine t columns index column v := by
  refine ⟨herror, ht, .column none column.name, fun env => ?_, ?_⟩
  · rw [current, huntouched]
    exact (Reader.yieldsAtom_column rfl column.name).yields
  · exact Tree.denote_column hvalue

end Update

/-!
## Constants
-/

theorem Compiler.compileAs_constant (c : Compiler) {v : Typed} (hfits : v.fits = true) :
    c.compileAs v.type (.constant v) = .ok (.ofValue v) := by
  have hlabel : TypedFragment.enumLabel? v.type (fold (.constant v)) = none := by
    rcases v with ⟨value, type⟩
    cases type <;> cases value <;> first | rfl | cases hfits
  have hjson : (v.type.isJson && !v.type.isJson && decide (v.type ≠ .null)) = false := by
    rw [Bool.and_not_self, Bool.false_and]
  unfold compileAs
  dsimp only
  rw [hlabel]
  show (if v.type.isJson && !v.type.isJson && decide (v.type ≠ .null) then _ else _) = _
  rw [hjson, if_neg Bool.false_ne_true]
  exact if_pos (SqlType.comparable_self v.type)

end TypedQuery
