import TypedQuery.Proofs.Fragment.Alias
import TypedQuery.Proofs.Statement.Body

/-!
# Subqueries inside other statements

A frozen subquery binds every slot that it mentions, and so do the subqueries inside it.  What
stands around it, whatever its slots and aliases, changes nothing but the numbers of its
placeholders.
-/

namespace TypedQuery

/-- The frame is written alike wherever it stands. -/
def Frame.SelfContained (frame : Frame) : Prop :=
  forall scopes scopes' : Scopes, Part.pieces scopes [frame.part] = Part.pieces scopes' [frame.part]

/-- Frozen from a query with the built-in registry and without fragments compiled beforehand; the
subqueries in its expressions are frozen in the same way. -/
inductive Subquery.Frozen : Subquery -> Prop where
  | intro {α : Type} {s : Select α} {q : Subquery} (hcalls : s.calls = .builtin)
      (hcompiled : forall e, e ∈ s.exprs -> forall f, .compiled f ∉ e.sources)
      (hsubqueries : forall e, e ∈ s.exprs -> forall q', .subquery q' ∈ e.sources -> Frozen q')
      (h : s.toSubquery = .ok q) : Frozen q

/-!
## What a frame decides
-/

theorem Select.exists_binding {α : Type} {s : Select α} {slot : Slot} {t : Table}
    (h : (slot, t) ∈ s.tables) : exists b, s.aliases.binding? slot = some b := by
  unfold Select.aliases
  split
  · rename_i only t' htables
    rw [htables, List.mem_singleton] at h
    cases h
    exact ⟨_, AliasMap.binding?_single slot t⟩
  · rcases AliasMap.exists_binding_of_mem h with ⟨entry, -, -, hbinding⟩
    exact ⟨_, hbinding⟩

section

variable {aliases : AliasMap} {slot : Slot} {b : Binding}

theorem Part.pieces_column_push (scopes scopes' : Scopes) (h : aliases.binding? slot = some b)
    (name : String) :
    Part.pieces (scopes.push aliases false) [.column slot name] =
      Part.pieces (scopes'.push aliases false) [.column slot name] := by
  have htext : (scopes.push aliases false).columnText slot name =
      (scopes'.push aliases false).columnText slot name := by
    unfold Scopes.columnText
    rw [Scopes.qualifier?_eq, Scopes.qualifier?_eq, scopes.qualifierName?_push h,
      scopes'.qualifierName?_push h]
  rw [pieces_singleton, pieces_singleton]
  exact congrArg (fun text => [Piece.sql text]) htext

theorem Part.pieces_table_push (scopes scopes' : Scopes) (h : aliases.binding? slot = some b)
    (t : Table) :
    Part.pieces (scopes.push aliases false) [.table slot t] =
      Part.pieces (scopes'.push aliases false) [.table slot t] := by
  have htext : (scopes.push aliases false).tableText slot t =
      (scopes'.push aliases false).tableText slot t := by
    unfold Scopes.tableText
    rw [Scopes.tableAlias?_eq, Scopes.tableAlias?_eq, scopes.tableName?_push false h,
      scopes'.tableName?_push false h]
  rw [pieces_singleton, pieces_singleton]
  exact congrArg (fun text => [Piece.sql text]) htext

end

namespace Subquery

theorem Frozen.selfContained {q : Subquery} (h : q.Frozen) : q.frame.SelfContained := by
  induction h with
  | @intro α s q hcalls hcompiled _ h ih =>
      rcases Result.bind_eq_ok.mp h with ⟨⟨body, single⟩, hbody, hq⟩
      cases hq
      have hcomposes : s.calls.Composes := hcalls ▸ CallRegistry.builtin_composes
      intro scopes scopes'
      have hpieces : forall outer : Scopes,
          Part.pieces outer [Frame.part ⟨body, s.aliases, false⟩] =
            Part.pieces (outer.push s.aliases false) body.parts :=
        fun outer => Part.pieces_singleton outer _
      rw [hpieces, hpieces]
      apply Part.pieces_congr
      intro part hpart
      cases Select.mentions_of_body hcomposes hbody hpart with
      | table htable =>
          rcases Select.exists_binding htable with ⟨b, hb⟩
          exact Part.pieces_table_push scopes scopes' hb _
      | column htable hcolumn =>
          rcases Select.exists_binding htable with ⟨b, hb⟩
          exact Part.pieces_column_push scopes scopes' hb _
      | subquery he hq => exact ih _ he _ hq _ _
      | compiled he hf _ => exact absurd hf (hcompiled _ he _)

/-- A query of plain expressions has no subqueries. -/
theorem Frozen.of_isPlain {α : Type} {s : Select α} {q : Subquery} (hcalls : s.calls = .builtin)
    (hplain : forall e, e ∈ s.exprs -> e.isPlain = true) (h : s.toSubquery = .ok q) : q.Frozen := by
  refine .intro hcalls ?_ ?_ h
  · intro e he f hf
    exact Expr.IsPathOrError.ne_compiled (Expr.isPathOrError_of_isPlain (hplain e he) hf)
  · intro e he q' hq
    exact absurd (Expr.isPathOrError_of_isPlain (hplain e he) hq) Expr.IsPathOrError.ne_subquery

/-- Wherever a frozen subquery stands, its text is that of its own rendering with the placeholders
shifted by the parameters before it, and it adds the same parameters in the same order.  What
stands before and after it does not depend on it. -/
theorem embedded_rendering {q : Subquery} (h : q.Frozen) (site : Site) (p : Placeholder) :
    let alone := q.frame.framed
    let whole : Fragment := ⟨site.fill q.frame.part⟩
    let before := site.piecesBefore {}
    let after := site.piecesAfter {}
    Mark.text p alone.marks = (alone.renderWith (.bound p)).sql ∧
      whole.renderWith (.bound p) =
        { sql := Mark.text p (Piece.marks 0 before) ++
            Mark.text p (alone.marks.map (Mark.shift (Piece.values before).length)) ++
            Mark.text p (Piece.marks
              ((Piece.values before).length + (alone.renderWith (.bound p)).params.size) after)
          params := ⟨Piece.values before ++ (alone.renderWith (.bound p)).params.values ++
            Piece.values after⟩ } ∧
      whole.renderWith .simple =
        { sql := Piece.simpleText before ++ (alone.renderWith .simple).sql ++
            Piece.simpleText after
          params := {} } := by
  intro alone whole before after
  have hpieces : whole.pieces = before ++ alone.pieces ++ after := by
    have halone : alone.pieces = Part.pieces {} [q.frame.part] := rfl
    have hfill : whole.pieces = _ := site.pieces_fill {} q.frame.part
    rw [hfill, h.selfContained (site.scopes {}) {}, <- halone]
  have hvalues : Piece.values alone.pieces = alone.boundValues := alone.values_pieces
  have hmarks : Piece.marks (Piece.values before).length alone.pieces =
      alone.marks.map (Mark.shift (Piece.values before).length) := by
    have hadd := Piece.marks_add 0 (Piece.values before).length alone.pieces
    rwa [Nat.zero_add] at hadd
  refine ⟨?_, ?_, ?_⟩
  · rw [Fragment.renderWith_bound]
  · rw [Fragment.renderWith_eq_pieces, Piece.foldl_writePiece_bound, hpieces,
      Fragment.renderWith_bound]
    simp only [Piece.marks_append, Piece.values_append, Mark.text_append, hvalues,
      List.length_append, Parameters.size, List.length_nil, List.nil_append, Nat.zero_add, hmarks]
    simp
  · rw [Fragment.renderWith_eq_pieces, Piece.foldl_writePiece_simple, hpieces,
      Fragment.renderWith_simple]
    simp [Piece.simpleText_append, Rendered.write, String.append_assoc]

def noteTable : Table where
  model := "Note"
  name := "note"
  schema := none
  columns := [
    { field := "id", name := "id", type := .bigint, primaryKey := true },
    { field := "digest", name := "digest", type := .bytea }]

def notesOf (digest : List UInt8) : Select Value :=
  ((Select.ofModel ⟨"Note", .ok noteTable, []⟩).filter
    (.binary .eq (.col "digest") (.constant ⟨.bytes digest, .bytea⟩))).scalar .raw (.col "id")

def notesOfFrame (digest : List UInt8) : Frame where
  query := ⟨[.text "SELECT ", .nested [.column .root "id"], .text " FROM ",
    .table .root noteTable, .text " WHERE ",
    .nested [.text "(", .nested [.column .root "digest"], .text ") = (",
      .nested [.value ⟨.bytes digest, .bytea⟩], .text ")"]]⟩
  aliases := ⟨[⟨.root, "note", "note"⟩]⟩

def logUpdate : Site :=
  .frame [.text "UPDATE log SET digest = ", .value ⟨.bytes [0], .bytea⟩, .text ", note = ("]
    ⟨[⟨.root, "log", "log"⟩]⟩ true (.here [] [.text ")"]) []

theorem notesOf_embedded :
    Frozen ⟨notesOfFrame [1], some .bigint⟩ ∧
      (Fragment.mk (logUpdate.fill (notesOfFrame [1]).part)).renderWith (.bound .dollar) =
        { sql := "UPDATE log SET digest = $1::bytea, note = (" ++
            "SELECT \"id\" FROM \"note\" WHERE (\"digest\") = ($2::bytea)" ++ ")"
          params := ⟨[⟨.bytes [0], .bytea⟩, ⟨.bytes [1], .bytea⟩]⟩ } := by
  have hfrozen : Frozen ⟨notesOfFrame [1], some .bigint⟩ :=
    .of_isPlain (s := notesOf [1]) rfl (by decide) rfl
  refine ⟨hfrozen, ?_⟩
  rw [(embedded_rendering hfrozen logUpdate .dollar).2.1]
  rfl

end Subquery

end TypedQuery
