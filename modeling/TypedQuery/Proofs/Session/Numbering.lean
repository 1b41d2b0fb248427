import TypedQuery.Proofs.Fragment.Placeholder
import TypedQuery.Session.Command

/-!
# Numbers of placeholders in a command

The statements of a command share one numbering.  The text of a command is that of its statements
rendered alone, each with its placeholders shifted by the parameters of the statements before it.
-/

namespace TypedQuery
namespace Command

def segmentPieces : List Fragment -> List Piece
  | [] => []
  | [f] => f.pieces
  | f :: next :: rest => f.pieces ++ .sql statementSeparator :: segmentPieces (next :: rest)

theorem writeSegments_eq_pieces (mode : RenderMode) (r : Rendered) (segments : List Fragment) :
    writeSegments mode r segments = (segmentPieces segments).foldl mode.writePiece r := by
  induction segments generalizing r with
  | nil => rfl
  | cons f rest ih =>
      cases rest with
      | nil => exact RenderMode.writeParts_eq_pieces mode {} r f.parts
      | cons next rest =>
          rw [segmentPieces, List.foldl_append, List.foldl_cons, <- ih]
          have hfirst := RenderMode.writeParts_eq_pieces mode {} r f.parts
          simp only [writeSegments, hfirst]
          rfl

/-!
## Numbering on

The statements are numbered one after the other, each from the count that those before it leave.
-/

def numbered (count : Nat) : List Fragment -> List (List Mark)
  | [] => []
  | f :: rest => f.marks.map (Mark.shift count) :: numbered (count + f.boundValues.length) rest

theorem marks_segmentPieces (count : Nat) (segments : List Fragment) :
    Piece.marks count (segmentPieces segments) =
      [Mark.sql statementSeparator].intercalate (numbered count segments) := by
  induction segments generalizing count with
  | nil => rfl
  | cons f rest ih =>
      have hhead : Piece.marks count f.pieces = f.marks.map (Mark.shift count) := by
        have hadd := Piece.marks_add 0 count f.pieces
        rwa [Nat.zero_add] at hadd
      cases rest with
      | nil => simpa [segmentPieces, numbered] using hhead
      | cons next rest =>
          rw [segmentPieces, Piece.marks_append, Fragment.values_pieces, hhead, Piece.marks, ih]
          simp [numbered, List.intercalate_cons_cons]

theorem values_segmentPieces (segments : List Fragment) :
    Piece.values (segmentPieces segments) = segments.flatMap Fragment.boundValues := by
  induction segments with
  | nil => rfl
  | cons f rest ih =>
      cases rest with
      | nil => simp [segmentPieces, Fragment.values_pieces]
      | cons next rest =>
          rw [segmentPieces, Piece.values_append, Fragment.values_pieces, Piece.values, ih]
          simp

theorem simpleText_segmentPieces (segments : List Fragment) :
    Piece.simpleText (segmentPieces segments) =
      statementSeparator.intercalate (segments.map Fragment.renderSimple) := by
  induction segments with
  | nil => rfl
  | cons f rest ih =>
      cases rest with
      | nil => simp [segmentPieces, Fragment.renderSimple_eq]
      | cons next rest =>
          rw [segmentPieces, Piece.simpleText_append, Piece.simpleText, ih]
          simp [Fragment.renderSimple_eq, String.intercalate_cons_cons, String.append_assoc]

theorem text_intercalate (p : Placeholder) (separator : String) (texts : List (List Mark)) :
    Mark.text p ([Mark.sql separator].intercalate texts) =
      separator.intercalate (texts.map (Mark.text p)) := by
  induction texts with
  | nil => simp
  | cons head rest ih =>
      cases rest with
      | nil => simp
      | cons next rest =>
          rw [List.intercalate_cons_cons, Mark.text_append, Mark.text_append, ih]
          simp [Mark.written, String.intercalate_cons_cons, String.append_assoc]

/-- The parameters of the statements before a position, counted over their renderings alone. -/
def parametersBefore (p : Placeholder) (segments : List Fragment) (position : Nat) : Nat :=
  ((segments.take position).flatMap fun f => (f.renderWith (.bound p)).params.values).length

def segmentMarks (c : Command) (p : Placeholder) : List (List Mark) :=
  c.segments.mapIdx fun position f =>
    f.marks.map (Mark.shift (parametersBefore p c.segments position))

theorem numbered_eq_mapIdx (p : Placeholder) (count : Nat) (segments : List Fragment) :
    numbered count segments = segments.mapIdx fun position f =>
      f.marks.map (Mark.shift (count + parametersBefore p segments position)) := by
  induction segments generalizing count with
  | nil => rfl
  | cons f rest ih =>
      rw [numbered, List.mapIdx_cons, ih]
      simp [parametersBefore, Fragment.renderWith_bound, Nat.add_assoc]

theorem numbered_zero (c : Command) (p : Placeholder) :
    numbered 0 c.segments = c.segmentMarks p := by
  rw [numbered_eq_mapIdx p]
  simp [segmentMarks]

theorem render_bound (c : Command) (p : Placeholder) :
    c.render (.bound p) =
      { sql := Mark.text p ([Mark.sql statementSeparator].intercalate (c.segmentMarks p))
        params := ⟨c.segments.flatMap Fragment.boundValues⟩ } := by
  rw [render, writeSegments_eq_pieces, Piece.foldl_writePiece_bound, values_segmentPieces]
  have hmarks := marks_segmentPieces 0 c.segments
  rw [numbered_zero c p] at hmarks
  simp [Parameters.size, hmarks]

theorem render_simple (c : Command) :
    c.render .simple =
      { sql := statementSeparator.intercalate (c.segments.map Fragment.renderSimple)
        params := {} } := by
  rw [render, writeSegments_eq_pieces, Piece.foldl_writePiece_simple, simpleText_segmentPieces]
  simp [Rendered.write]

/-- For every list of statements and every mode: the text of the command is that of the statements
alone joined by separators, each with its placeholders shifted by the parameters of those before
it, and the parameters are those of the statements one after the other.  The placeholders of the
whole text are numbered from one in the order of the text, and their values are the bound values
in the order of a walk through the statements. -/
theorem render_eq_statements_joined (c : Command) (p : Placeholder) :
    let marks := [Mark.sql statementSeparator].intercalate (c.segmentMarks p)
    (c.render (.bound p)).sql =
        statementSeparator.intercalate ((c.segmentMarks p).map (Mark.text p)) ∧
      (forall f : Fragment, Mark.text p f.marks = (f.renderWith (.bound p)).sql) ∧
      (c.render (.bound p)).params.values =
        c.segments.flatMap (fun f => (f.renderWith (.bound p)).params.values) ∧
      Mark.text p marks = (c.render (.bound p)).sql ∧
      marks.filterMap Mark.index? = List.range' 1 (c.render (.bound p)).params.size ∧
      (c.render (.bound p)).params.values =
        c.segments.flatMap (fun f => (Part.allValues f.parts).filter Typed.isBound) ∧
      (c.render .simple).sql =
        statementSeparator.intercalate (c.segments.map fun f => (f.renderWith .simple).sql) ∧
      (c.render .simple).params.values =
        c.segments.flatMap (fun f => (f.renderWith .simple).params.values) := by
  intro marks
  have hindices : marks.filterMap Mark.index? =
      List.range' 1 (c.segments.flatMap Fragment.boundValues).length := by
    have hmarks := marks_segmentPieces 0 c.segments
    rw [numbered_zero c p] at hmarks
    rw [<- values_segmentPieces, <- Piece.indices_marks 0, hmarks]
  refine ⟨?_, ?_, ?_, ?_, ?_, ?_, ?_, ?_⟩
  · rw [render_bound, text_intercalate]
  · intro f
    rw [Fragment.renderWith_bound]
  · simp only [render_bound, Fragment.renderWith_bound]
  · rw [render_bound]
  · rw [hindices, render_bound]
    rfl
  · rw [render_bound]
    rfl
  · rw [render_simple]
    rfl
  · simp [render_simple, Fragment.renderWith_simple]

end Command
end TypedQuery
