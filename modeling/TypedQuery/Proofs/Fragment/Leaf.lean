import TypedQuery.Fragment.Render

/-!
# Leaves of a fragment

Rendering walks a tree of parts with two things in hand: the aliases in force and what is written
so far.  This module cuts the walk in two.  The leaves of a fragment are its texts, values, columns
and tables in order, each under the frames it sits in; rendering is a fold over them.
-/

namespace TypedQuery

inductive Leaf where
  | text (s : String)
  | value (v : Typed)
  | column (slot : Slot) (name : String)
  | table (slot : Slot) (t : Table)

/-- A leaf under the frames it sits in. -/
structure Placed where
  scopes : Scopes
  leaf : Leaf

mutual

def Part.leaves (scopes : Scopes) : Part -> List Placed
  | .text s => [⟨scopes, .text s⟩]
  | .value v => [⟨scopes, .value v⟩]
  | .column slot name => [⟨scopes, .column slot name⟩]
  | .table slot t => [⟨scopes, .table slot t⟩]
  | .nested parts => Part.allLeaves scopes parts
  | .frame aliases unqualified parts =>
      Part.allLeaves (scopes.push aliases unqualified) parts

def Part.allLeaves (scopes : Scopes) : List Part -> List Placed
  | [] => []
  | part :: rest => part.leaves scopes ++ Part.allLeaves scopes rest

end

theorem Part.allLeaves_append (scopes : Scopes) (xs ys : List Part) :
    allLeaves scopes (xs ++ ys) = allLeaves scopes xs ++ allLeaves scopes ys := by
  induction xs with
  | nil => rfl
  | cons part rest ih => rw [List.cons_append, allLeaves, allLeaves, ih, List.append_assoc]

def Fragment.leaves (f : Fragment) : List Placed := Part.allLeaves {} f.parts

def RenderMode.writeLeaf (mode : RenderMode) (r : Rendered) (p : Placed) : Rendered :=
  match p.leaf with
  | .text s => r.write s
  | .value v => mode.writeValue r v
  | .column slot name => RenderMode.writeColumn p.scopes r slot name
  | .table slot t => RenderMode.writeTable p.scopes r slot t

namespace RenderMode

mutual

theorem writePart_eq_foldl (mode : RenderMode) (scopes : Scopes) (r : Rendered) (part : Part) :
    mode.writePart scopes r part = (part.leaves scopes).foldl mode.writeLeaf r := by
  cases part with
  | text s => rfl
  | value v => rfl
  | column slot name => rfl
  | table slot t => rfl
  | nested parts =>
      rw [writePart, Part.leaves]
      exact writeParts_eq_foldl mode scopes r parts
  | frame aliases unqualified parts =>
      rw [writePart, Part.leaves]
      exact writeParts_eq_foldl mode (scopes.push aliases unqualified) r parts

theorem writeParts_eq_foldl (mode : RenderMode) (scopes : Scopes) (r : Rendered)
    (parts : List Part) :
    mode.writeParts scopes r parts = (Part.allLeaves scopes parts).foldl mode.writeLeaf r := by
  cases parts with
  | nil => rfl
  | cons part rest =>
      rw [writeParts, Part.allLeaves, List.foldl_append, writePart_eq_foldl mode scopes r part]
      exact writeParts_eq_foldl mode scopes _ rest

end

end RenderMode

theorem Fragment.renderWith_eq_foldl (f : Fragment) (mode : RenderMode) :
    f.renderWith mode = f.leaves.foldl mode.writeLeaf {} :=
  RenderMode.writeParts_eq_foldl mode {} {} f.parts

/-!
## Pieces

What a leaf contributes to a rendering is either text that is the same in every mode, or a value
that is not inline.
-/

inductive Piece where
  | sql (text : String)
  | value (v : Typed)

namespace Scopes

def columnText (scopes : Scopes) (slot : Slot) (name : String) : String :=
  match scopes.qualifier? slot with
  | some qualifier => qualifier ++ "." ++ Text.quoteIdent name
  | none => Text.quoteIdent name

def tableText (scopes : Scopes) (slot : Slot) (t : Table) : String :=
  match scopes.tableAlias? slot with
  | some name => t.qualifiedName ++ " " ++ name
  | none => t.qualifiedName

end Scopes

def Placed.piece (p : Placed) : Piece :=
  match p.leaf with
  | .text s => .sql s
  | .value v =>
      match v.value.inlineLiteral? with
      | some literal => .sql literal
      | none => .value v
  | .column slot name => .sql (p.scopes.columnText slot name)
  | .table slot t => .sql (p.scopes.tableText slot t)

/-- The pieces of parts that stand in the given frames. -/
def Part.pieces (scopes : Scopes) (parts : List Part) : List Piece :=
  (Part.allLeaves scopes parts).map Placed.piece

def Fragment.pieces (f : Fragment) : List Piece := Part.pieces {} f.parts

namespace RenderMode

def writePiece (mode : RenderMode) (r : Rendered) : Piece -> Rendered
  | .sql text => r.write text
  | .value v =>
      match mode with
      | simple => r.write (v.value.literal ++ castOf v)
      | bound placeholder =>
          let params := r.params.push v
          { sql := r.sql ++ placeholder.written params.size ++ castOf v, params }

theorem writeColumn_eq (scopes : Scopes) (r : Rendered) (slot : Slot) (name : String) :
    writeColumn scopes r slot name = r.write (scopes.columnText slot name) := by
  unfold writeColumn Scopes.columnText
  cases scopes.qualifier? slot <;> rfl

theorem writeTable_eq (scopes : Scopes) (r : Rendered) (slot : Slot) (t : Table) :
    writeTable scopes r slot t = r.write (scopes.tableText slot t) := by
  unfold writeTable Scopes.tableText
  cases scopes.tableAlias? slot <;> rfl

theorem writeLeaf_eq (mode : RenderMode) (r : Rendered) (p : Placed) :
    mode.writeLeaf r p = mode.writePiece r p.piece := by
  rcases p with ⟨scopes, leaf⟩
  cases leaf with
  | text s => rfl
  | value v =>
      simp only [writeLeaf, Placed.piece, writeValue]
      cases v.value.inlineLiteral? <;> rfl
  | column slot name => exact writeColumn_eq scopes r slot name
  | table slot t => exact writeTable_eq scopes r slot t

/-- Rendering is a fold over pieces, which do not depend on the mode. -/
theorem writeParts_eq_pieces (mode : RenderMode) (scopes : Scopes) (r : Rendered)
    (parts : List Part) :
    mode.writeParts scopes r parts = (Part.pieces scopes parts).foldl mode.writePiece r := by
  rw [writeParts_eq_foldl, Part.pieces, List.foldl_map]
  congr
  funext r p
  exact writeLeaf_eq mode r p

end RenderMode

theorem Fragment.renderWith_eq_pieces (f : Fragment) (mode : RenderMode) :
    f.renderWith mode = f.pieces.foldl mode.writePiece {} :=
  RenderMode.writeParts_eq_pieces mode {} {} f.parts

end TypedQuery
