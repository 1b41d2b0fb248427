import TypedQuery.Fragment.Alias
import TypedQuery.Sql.Value

/-!
# SQL fragments

A fragment is a list of parts: text, values, column and table references over slots, fragments
inside fragments, and frames.  A frame has aliases of its own; slots that it does not bind are
looked up in the frames around it.  Neighbouring texts are merged as they are appended.
-/

namespace TypedQuery

inductive Part where
  | text (s : String)
  | value (v : Typed)
  | column (slot : Slot) (name : String)
  | table (slot : Slot) (t : Table)
  | nested (parts : List Part)
  | frame (aliases : AliasMap) (unqualified : Bool) (parts : List Part)
deriving Inhabited

structure Fragment where
  parts : List Part := []
deriving Inhabited

/-- A fragment under its own alias map; an unqualified frame writes its own columns bare. -/
structure Frame where
  query : Fragment
  aliases : AliasMap
  unqualified : Bool := false
deriving Inhabited

/-- Appends a part to a list of parts, merging a text into a text before it. -/
def pushPart (part : Part) : List Part -> List Part
  | [] => [part]
  | [last] =>
      match last, part with
      | .text s, .text t => [.text (s ++ t)]
      | last, part => [last, part]
  | first :: next :: rest => first :: pushPart part (next :: rest)

namespace Fragment

def empty : Fragment := {}

def isEmpty (f : Fragment) : Bool := f.parts.isEmpty

def push (f : Fragment) (part : Part) : Fragment := ⟨pushPart part f.parts⟩

def text (f : Fragment) (s : String) : Fragment := f.push (.text s)

def value (f : Fragment) (v : Typed) : Fragment := f.push (.value v)

def column (f : Fragment) (slot : Slot) (name : String) : Fragment := f.push (.column slot name)

def table (f : Fragment) (slot : Slot) (t : Table) : Fragment := f.push (.table slot t)

def nested (f inner : Fragment) : Fragment := f.push (.nested inner.parts)

def frame (f : Fragment) (inner : Frame) : Fragment :=
  f.push (.frame inner.aliases inner.unqualified inner.query.parts)

def joined (f : Fragment) (items : List Fragment) (separator : String) : Fragment :=
  match items with
  | [] => f
  | item :: rest => rest.foldl (fun f item => (f.text separator).nested item) (f.nested item)

end Fragment

def Frame.framed (frame : Frame) : Fragment := Fragment.empty.frame frame

end TypedQuery
