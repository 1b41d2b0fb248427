import TypedQuery.Fragment.Basic
import TypedQuery.Sql.Literal

/-!
# Rendering fragments

Bound rendering writes inline the values that may stand inline and turns every other value into a
numbered placeholder with a cast; simple rendering writes every value as a literal.  Rendering
depends on the fragment alone.
-/

namespace TypedQuery

/-- The sign before the number of a placeholder. -/
inductive Placeholder where
  | atSign
  | dollar
deriving DecidableEq

def Placeholder.written (p : Placeholder) (index : Nat) : String :=
  match p with
  | atSign => "@" ++ toString index
  | dollar => "$" ++ toString index

inductive RenderMode where
  | bound (placeholder : Placeholder)
  | simple
deriving DecidableEq

structure Parameters where
  values : List Typed := []
deriving Inhabited

namespace Parameters

def size (p : Parameters) : Nat := p.values.length

def isEmpty (p : Parameters) : Bool := p.values.isEmpty

/-- Adds a value; its position is the new size. -/
def push (p : Parameters) (v : Typed) : Parameters := ⟨p.values ++ [v]⟩

/-- The value at a position, counted from one. -/
def get? (p : Parameters) : Nat -> Option Typed
  | 0 => none
  | n + 1 => p.values[n]?

end Parameters

/-- SQL text and the values of its placeholders. -/
structure Rendered where
  sql : String := ""
  params : Parameters := {}
deriving Inhabited

namespace Rendered

def write (r : Rendered) (text : String) : Rendered := { r with sql := r.sql ++ text }

end Rendered

/-- The aliases that are in force, innermost first. -/
structure Scopes where
  frames : List (AliasMap × Bool) := []

namespace Scopes

def push (scopes : Scopes) (aliases : AliasMap) (unqualified : Bool) : Scopes :=
  ⟨(aliases, unqualified) :: scopes.frames⟩

def binding? (scopes : Scopes) (slot : Slot) : Option Binding :=
  scopes.frames.findSome? fun (aliases, _) => aliases.binding? slot

/-- The alias written after a table name; a slot bound nowhere is its own alias. -/
def tableAlias? (scopes : Scopes) (slot : Slot) : Option String :=
  match scopes.binding? slot with
  | some b => b.written?
  | none => some (aliasIdent slot.name)

/-- The qualifier written before a column; the innermost frame may leave out its own. -/
def qualifier? (scopes : Scopes) (slot : Slot) : Option String :=
  match scopes.frames with
  | (aliases, true) :: _ =>
      if aliases.contains slot then none else scopes.tableAlias? slot
  | _ => scopes.tableAlias? slot

end Scopes

/-- The cast written after a value that is not inline. -/
def castOf (v : Typed) : String :=
  match v.type, v.value with
  | .null, .array _ => "::text[]"
  | .null, _ => ""
  | type, _ => "::" ++ type.cast

namespace RenderMode

def writeValue (mode : RenderMode) (r : Rendered) (v : Typed) : Rendered :=
  match v.value.inlineLiteral? with
  | some literal => r.write literal
  | none =>
      match mode with
      | simple => r.write (v.value.literal ++ castOf v)
      | bound placeholder =>
          let params := r.params.push v
          { sql := r.sql ++ placeholder.written params.size ++ castOf v, params }

def writeColumn (scopes : Scopes) (r : Rendered) (slot : Slot) (name : String) : Rendered :=
  match scopes.qualifier? slot with
  | some qualifier => r.write (qualifier ++ "." ++ Text.quoteIdent name)
  | none => r.write (Text.quoteIdent name)

def writeTable (scopes : Scopes) (r : Rendered) (slot : Slot) (t : Table) : Rendered :=
  match scopes.tableAlias? slot with
  | some name => r.write (t.qualifiedName ++ " " ++ name)
  | none => r.write t.qualifiedName

mutual

def writePart (mode : RenderMode) (scopes : Scopes) (r : Rendered) : Part -> Rendered
  | .text s => r.write s
  | .value v => mode.writeValue r v
  | .column slot name => writeColumn scopes r slot name
  | .table slot t => writeTable scopes r slot t
  | .nested parts => writeParts mode scopes r parts
  | .frame aliases unqualified parts => writeParts mode (scopes.push aliases unqualified) r parts

def writeParts (mode : RenderMode) (scopes : Scopes) (r : Rendered) : List Part -> Rendered
  | [] => r
  | part :: rest => writeParts mode scopes (writePart mode scopes r part) rest

end

end RenderMode

namespace Fragment

def renderWith (f : Fragment) (mode : RenderMode) : Rendered := mode.writeParts {} {} f.parts

def render (f : Fragment) : Rendered := f.renderWith (.bound .atSign)

def renderSimple (f : Fragment) : String := (f.renderWith .simple).sql

end Fragment

end TypedQuery
