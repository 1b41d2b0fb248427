import TypedQuery.Expr.Compile
import TypedQuery.Row.Reader

/-!
# Statements

A statement is a fragment ready to run, together with the way its result set becomes an output.
-/

namespace TypedQuery

structure Statement (α : Type) where
  query : Fragment
  decode : ResultSet -> Result α

namespace Statement

def map {α β : Type} (f : α -> β) (s : Statement α) : Statement β :=
  ⟨s.query, fun result => (s.decode result).map f⟩

def render {α : Type} (s : Statement α) : Rendered := s.query.render

end Statement

inductive OrderDirection where
  | ascending
  | descending
deriving DecidableEq

/-- One item of an ORDER BY clause. -/
structure OrderItem where
  expr : Expr
  direction : OrderDirection

namespace OrderItem

/-- A column of the first table; a minus sign before it turns the order round. -/
def ofText (text : String) : OrderItem :=
  match text.toList with
  | '-' :: rest => ⟨.col (String.ofList rest), .descending⟩
  | _ => ⟨.col text, .ascending⟩

def keyword (item : OrderItem) : String :=
  match item.direction with
  | .ascending => " ASC"
  | .descending => " DESC"

end OrderItem

/-- Appends a WHERE clause for all predicates together. -/
def Fragment.filtered (f : Fragment) (compiler : Compiler) (predicates : List Expr) :
    Result Fragment :=
  match Expr.conjunction? predicates with
  | none => .ok f
  | some predicate => do
      let compiled <- compiler.compilePredicate predicate
      return (f.text " WHERE ").nested compiled.query

end TypedQuery
