import TypedQuery.Proofs.Fragment.Leaf

/-!
# Placeholders of rendered text

Rendered text alone does not tell a placeholder that the renderer wrote from a `$1` that stands in
a text.  Marked text does: it is cut into stretches of plain text and placeholders with their
numbers.  Written out with either sign it is the bound rendering, and filled with the literals of
the parameters it is the simple rendering.
-/

namespace TypedQuery

inductive Mark where
  | sql (text : String)
  | placeholder (index : Nat)

namespace Mark

def written (p : Placeholder) : Mark -> String
  | sql text => text
  | placeholder index => p.written index

def filled? (params : Parameters) : Mark -> Option String
  | sql text => some text
  | placeholder index => (params.get? index).map fun v => v.value.literal

def shift (count : Nat) : Mark -> Mark
  | sql text => sql text
  | placeholder index => placeholder (index + count)

def index? : Mark -> Option Nat
  | sql _ => none
  | placeholder index => some index

def text (p : Placeholder) (marks : List Mark) : String := String.join (marks.map (written p))

/-- Marked text with every placeholder filled; none when a parameter is missing. -/
def fill? (params : Parameters) : List Mark -> Option String
  | [] => some ""
  | m :: rest =>
      (m.filled? params).bind fun head => (fill? params rest).map fun tail => head ++ tail

@[simp] theorem text_nil (p : Placeholder) : text p [] = "" := by
  simp [text]

@[simp] theorem text_cons (p : Placeholder) (m : Mark) (rest : List Mark) :
    text p (m :: rest) = m.written p ++ text p rest := by
  simp [text]

theorem text_append (p : Placeholder) (first second : List Mark) :
    text p (first ++ second) = text p first ++ text p second := by
  simp [text, String.join_append]

end Mark

/-!
## Numbering
-/

namespace Piece

def values : List Piece -> List Typed
  | [] => []
  | .sql _ :: rest => values rest
  | .value v :: rest => v :: values rest

def marks (count : Nat) : List Piece -> List Mark
  | [] => []
  | .sql text :: rest => .sql text :: marks count rest
  | .value v :: rest => .placeholder (count + 1) :: .sql (castOf v) :: marks (count + 1) rest

def simpleText : List Piece -> String
  | [] => ""
  | .sql text :: rest => text ++ simpleText rest
  | .value v :: rest => v.value.literal ++ castOf v ++ simpleText rest

theorem foldl_writePiece_bound (p : Placeholder) (r : Rendered) (pieces : List Piece) :
    pieces.foldl (RenderMode.bound p).writePiece r =
      { sql := r.sql ++ Mark.text p (marks r.params.size pieces)
        params := ⟨r.params.values ++ values pieces⟩ } := by
  induction pieces generalizing r with
  | nil =>
      simp [marks, values]
  | cons piece rest ih =>
      rw [List.foldl_cons, ih]
      cases piece with
      | sql text =>
          simp [RenderMode.writePiece, Rendered.write, marks, values, Mark.written,
            String.append_assoc]
      | value v =>
          simp [RenderMode.writePiece, Parameters.push, Parameters.size, marks, values,
            Mark.written, String.append_assoc]

theorem foldl_writePiece_simple (r : Rendered) (pieces : List Piece) :
    pieces.foldl RenderMode.simple.writePiece r = r.write (simpleText pieces) := by
  induction pieces generalizing r with
  | nil =>
      simp [simpleText, Rendered.write]
  | cons piece rest ih =>
      rw [List.foldl_cons, ih]
      cases piece <;>
        simp [RenderMode.writePiece, Rendered.write, simpleText, String.append_assoc]

/-- Filling the placeholders of marked text gives the text with every value written out; the
parameters of other text may stand before and after. -/
theorem fill?_marks (before after : List Typed) (pieces : List Piece) :
    Mark.fill? ⟨before ++ values pieces ++ after⟩ (marks before.length pieces) =
      some (simpleText pieces) := by
  induction pieces generalizing before with
  | nil => rfl
  | cons piece rest ih =>
      cases piece with
      | sql text =>
          simp only [marks, Mark.fill?, Mark.filled?, values, simpleText]
          rw [ih before]
          rfl
      | value v =>
          have hfirst : Parameters.get? ⟨before ++ v :: values rest ++ after⟩
              (before.length + 1) = some v := by
            simp [Parameters.get?]
          have hrest := ih (before ++ [v])
          simp only [List.append_assoc, List.length_append, List.length_singleton,
            List.cons_append, List.nil_append] at hrest hfirst
          simp only [marks, Mark.fill?, Mark.filled?, values, simpleText, List.append_assoc,
            List.cons_append, hfirst, hrest]
          simp [String.append_assoc]

theorem marks_add (count more : Nat) (pieces : List Piece) :
    marks (count + more) pieces = (marks count pieces).map (Mark.shift more) := by
  induction pieces generalizing count with
  | nil => rfl
  | cons piece rest ih =>
      cases piece with
      | sql text => simp [marks, Mark.shift, ih]
      | value v =>
          have hnext : count + more + 1 = count + 1 + more := by omega
          simp [marks, Mark.shift, hnext, ih (count + 1)]

theorem marks_append (count : Nat) (first second : List Piece) :
    marks count (first ++ second) =
      marks count first ++ marks (count + (values first).length) second := by
  induction first generalizing count with
  | nil => simp [marks, values]
  | cons piece rest ih =>
      cases piece with
      | sql text => simp [marks, values, ih]
      | value v =>
          have hnext : count + 1 + (values rest).length = count + ((values rest).length + 1) := by
            omega
          simp [marks, values, ih, hnext]

theorem values_append (first second : List Piece) :
    values (first ++ second) = values first ++ values second := by
  induction first with
  | nil => rfl
  | cons piece rest ih =>
      cases piece <;> simp [values, ih]

theorem simpleText_append (first second : List Piece) :
    simpleText (first ++ second) = simpleText first ++ simpleText second := by
  induction first with
  | nil => simp [simpleText]
  | cons piece rest ih =>
      cases piece <;> simp [simpleText, ih, String.append_assoc]

theorem indices_marks (count : Nat) (pieces : List Piece) :
    (marks count pieces).filterMap Mark.index? =
      List.range' (count + 1) (values pieces).length := by
  induction pieces generalizing count with
  | nil => rfl
  | cons piece rest ih =>
      cases piece with
      | sql text =>
          simp [marks, List.filterMap_cons, Mark.index?, values, ih count]
      | value v =>
          simp [marks, List.filterMap_cons, Mark.index?, values, ih (count + 1),
            List.range'_succ]

end Piece

/-!
## Values of a tree
-/

def Typed.isBound (v : Typed) : Bool := v.value.inlineLiteral?.isNone

mutual

def Part.values : Part -> List Typed
  | .value v => [v]
  | .nested parts => Part.allValues parts
  | .frame _ _ parts => Part.allValues parts
  | _ => []

def Part.allValues : List Part -> List Typed
  | [] => []
  | part :: rest => part.values ++ Part.allValues rest

end

mutual

theorem Part.values_leaves (scopes : Scopes) (part : Part) :
    Piece.values ((part.leaves scopes).map Placed.piece) = part.values.filter Typed.isBound := by
  cases part with
  | value v =>
      cases hinline : v.value.inlineLiteral? <;>
        simp [leaves, Placed.piece, Piece.values, values, Typed.isBound, hinline]
  | nested parts =>
      rw [leaves, values]
      exact Part.values_allLeaves scopes parts
  | frame aliases unqualified parts =>
      rw [leaves, values]
      exact Part.values_allLeaves (scopes.push aliases unqualified) parts
  | text s => rfl
  | column slot name => rfl
  | table slot t => rfl

theorem Part.values_allLeaves (scopes : Scopes) (parts : List Part) :
    Piece.values ((Part.allLeaves scopes parts).map Placed.piece) =
      (Part.allValues parts).filter Typed.isBound := by
  cases parts with
  | nil => rfl
  | cons part rest =>
      rw [Part.allLeaves, Part.allValues, List.map_append, Piece.values_append,
        List.filter_append, Part.values_leaves scopes part, Part.values_allLeaves scopes rest]

end

namespace Fragment

def marks (f : Fragment) : List Mark := Piece.marks 0 f.pieces

/-- The values of a fragment that become parameters, in the order of a walk through it. -/
def boundValues (f : Fragment) : List Typed := (Part.allValues f.parts).filter Typed.isBound

theorem values_pieces (f : Fragment) : Piece.values f.pieces = f.boundValues :=
  Part.values_allLeaves {} f.parts

theorem renderWith_bound (f : Fragment) (p : Placeholder) :
    f.renderWith (.bound p) = { sql := Mark.text p f.marks, params := ⟨f.boundValues⟩ } := by
  rw [renderWith_eq_pieces, Piece.foldl_writePiece_bound, values_pieces]
  simp [marks, Parameters.size]

theorem renderWith_simple (f : Fragment) :
    f.renderWith .simple = { sql := Piece.simpleText f.pieces, params := {} } := by
  rw [renderWith_eq_pieces, Piece.foldl_writePiece_simple]
  simp [Rendered.write]

theorem renderSimple_eq (f : Fragment) : f.renderSimple = Piece.simpleText f.pieces := by
  rw [renderSimple, renderWith_simple]

theorem fill?_marks (f : Fragment) :
    Mark.fill? ⟨f.boundValues⟩ f.marks = some f.renderSimple := by
  have h := Piece.fill?_marks [] [] f.pieces
  simpa [marks, values_pieces, renderSimple_eq] using h

end Fragment

end TypedQuery
