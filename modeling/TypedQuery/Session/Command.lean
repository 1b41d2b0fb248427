import TypedQuery.Statement.Basic

/-!
# Commands and their results

A command is one or more statements that travel together.  Its statements are rendered into one
text, and the placeholders are numbered through all of them.  The server answers with one result
set for each statement, which are consumed in order.
-/

namespace TypedQuery

/-- The text between the statements of a command. -/
def statementSeparator : String := ";"

/-- Statements that are sent in a single round trip. -/
structure Command where
  segments : List Fragment := []
deriving Inhabited

namespace Command

def single (query : Fragment) : Command := ⟨[query]⟩

def push (c : Command) (query : Fragment) : Command := ⟨c.segments ++ [query]⟩

def size (c : Command) : Nat := c.segments.length

def isEmpty (c : Command) : Bool := c.segments.isEmpty

/-- Writes statements one after the other; the numbers of the placeholders go on. -/
def writeSegments (mode : RenderMode) (r : Rendered) : List Fragment -> Rendered
  | [] => r
  | [f] => mode.writeParts {} r f.parts
  | f :: rest => writeSegments mode ((mode.writeParts {} r f.parts).write statementSeparator) rest

def render (c : Command) (mode : RenderMode) : Rendered := writeSegments mode {} c.segments

end Command

/-- The result sets of a command that were not consumed yet. -/
structure ResultCursor where
  results : List ResultSet := []
deriving Inhabited

namespace ResultCursor

def push (c : ResultCursor) (r : ResultSet) : ResultCursor := ⟨c.results ++ [r]⟩

def advance (c : ResultCursor) : Option ResultSet × ResultCursor :=
  (c.results.head?, ⟨c.results.tail⟩)

def remaining (c : ResultCursor) : Nat := c.results.length

end ResultCursor

/-- How far a transaction is kept apart from others. -/
inductive IsolationLevel where
  | readUncommitted
  | readCommitted
  | repeatableRead
  | serializable
deriving DecidableEq

namespace IsolationLevel

instance : Inhabited IsolationLevel := ⟨readCommitted⟩

def sql : IsolationLevel -> String
  | readUncommitted => "READ UNCOMMITTED"
  | readCommitted => "READ COMMITTED"
  | repeatableRead => "REPEATABLE READ"
  | serializable => "SERIALIZABLE"

end IsolationLevel

end TypedQuery
