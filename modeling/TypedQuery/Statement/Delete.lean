import TypedQuery.Statement.Basic

/-!
# DELETE

Deletes the rows of one table that satisfy every predicate; without a predicate, all of them.
-/

namespace TypedQuery

structure Delete where
  table : Result Table
  filters : List Expr := []
  calls : CallRegistry := CallRegistry.builtin

namespace Delete

def ofModel (m : Model) : Delete := { table := m.table }

def withRegistry (d : Delete) (calls : CallRegistry) : Delete := { d with calls }

def filter (d : Delete) (predicate : Expr) : Delete :=
  { d with filters := d.filters ++ [predicate] }

def exclude (d : Delete) (predicate : Expr) : Delete := d.filter predicate.not

/-- The output is the number of deleted rows. -/
def build (d : Delete) : Result (Statement Nat) := do
  let t <- d.table
  let query := (Fragment.empty.text "DELETE FROM ").table .root t
  let query <- query.filtered { scope := .ofTable t, calls := d.calls } d.filters
  return ⟨(Frame.mk query (.single .root t) true).framed, fun result => .ok result.affected⟩

end Delete

end TypedQuery
