import TypedQuery.Schema.Table

/-!
# Table slots and aliases

A slot is a named placeholder for one table reference.  An alias map says under which alias each
slot is written; an alias that equals the table's own name is left out.
-/

namespace TypedQuery

/-- A named placeholder for one table reference. -/
structure Slot where
  name : String
deriving DecidableEq, Inhabited

namespace Slot

/-- The slot of the table at a position: `t0`, `t1` and so on. -/
def ofPosition (position : Nat) : Slot := ⟨"t" ++ toString position⟩

def root : Slot := ofPosition 0

end Slot

/-- Whether a name may stand without quotes: lowercase letters, digits and underscores, not
starting with a digit. -/
def isPlainAlias (name : String) : Bool :=
  match name.toList with
  | [] => false
  | c :: rest =>
      (c.isLower || c == '_') && rest.all fun d => d.isLower || d.isDigit || d == '_'

/-- An alias, quoted unless it is plain. -/
def aliasIdent (name : String) : String :=
  if isPlainAlias name then name else Text.quoteIdent name

/-- A slot, the alias it is written under, and the name of its table. -/
structure Binding where
  slot : Slot
  name : String
  table : String
deriving DecidableEq

structure AliasMap where
  bindings : List Binding := []
deriving DecidableEq, Inhabited

namespace AliasMap

def empty : AliasMap := {}

/-- Binds a slot, taking the place of an earlier binding. -/
def bind (map : AliasMap) (slot : Slot) (name : String) (table : Table) : AliasMap :=
  ⟨map.bindings.filter (·.slot ≠ slot) ++ [⟨slot, name, table.name⟩]⟩

def single (slot : Slot) (table : Table) : AliasMap := empty.bind slot table.name table

def positional (slots : List (Slot × Table)) : AliasMap :=
  slots.foldl (fun map (slot, table) => map.bind slot slot.name table) empty

def binding? (map : AliasMap) (slot : Slot) : Option Binding :=
  map.bindings.find? (·.slot = slot)

def alias? (map : AliasMap) (slot : Slot) : Option String := (map.binding? slot).map (·.name)

def contains (map : AliasMap) (slot : Slot) : Bool := (map.binding? slot).isSome

end AliasMap

/-- The alias that stands for a bound slot in SQL text; none when it is the table's own name. -/
def Binding.written? (b : Binding) : Option String :=
  if b.name = b.table then none else some (aliasIdent b.name)

end TypedQuery
