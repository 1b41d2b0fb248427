import Mathlib.Data.List.Forall2
import TypedQuery.Proofs.Fragment.Placeholder

/-!
# Text written for pieces

What a piece is written as depends on the mode and on the values before it only where the piece is
a value that is not inline.  A relation leaves open what is written for such a value, so that one
proof about the text of a fragment is good for every mode and every place in a statement.
-/

namespace TypedQuery

variable {spelled : Typed -> List Char -> Prop}

/-- The characters are the pieces, one after another, each value as something it may be spelled as
and with its cast. -/
inductive Written (spelled : Typed -> List Char -> Prop) : List Piece -> List Char -> Prop where
  | nil : Written spelled [] []
  | sql (text : String) {rest : List Piece} {written : List Char}
      (h : Written spelled rest written) :
      Written spelled (.sql text :: rest) (text.toList ++ written)
  | value (v : Typed) {spelling : List Char} {rest : List Piece} {written : List Char}
      (hv : spelled v spelling) (h : Written spelled rest written) :
      Written spelled (.value v :: rest) (spelling ++ ((castOf v).toList ++ written))

namespace Written

theorem split {first second : List Piece} {written : List Char}
    (h : Written spelled (first ++ second) written) :
    exists before after, written = before ++ after ∧ Written spelled first before ∧
      Written spelled second after := by
  induction first generalizing written with
  | nil => exact ⟨[], written, rfl, .nil, h⟩
  | cons piece rest ih =>
      cases h with
      | sql text hrest =>
          rcases ih hrest with ⟨before, after, rfl, hbefore, hafter⟩
          exact ⟨_, after, (List.append_assoc _ _ _).symm, .sql text hbefore, hafter⟩
      | value v hv hrest =>
          rcases ih hrest with ⟨before, after, rfl, hbefore, hafter⟩
          refine ⟨_, after, ?_, .value v hv hbefore, hafter⟩
          simp only [List.append_assoc]

theorem append {first second : List Piece} {before after : List Char}
    (hfirst : Written spelled first before) (hsecond : Written spelled second after) :
    Written spelled (first ++ second) (before ++ after) := by
  induction hfirst with
  | nil => exact hsecond
  | sql text _ ih =>
      rw [List.append_assoc]
      exact .sql text ih
  | value v hv _ ih =>
      rw [List.append_assoc, List.append_assoc]
      exact .value v hv ih

theorem of_sql (text : String) : Written spelled [.sql text] text.toList := by
  have h := Written.sql text (@Written.nil spelled)
  rwa [List.append_nil] at h

theorem eq_of_sql {text : String} {written : List Char}
    (h : Written spelled [.sql text] written) : written = text.toList := by
  cases h with
  | sql _ hrest =>
      cases hrest
      exact List.append_nil _

end Written

/-!
## Modes
-/

theorem written_simple {pieces : List Piece}
    (h : forall v, .value v ∈ pieces -> spelled v v.value.literal.toList) :
    Written spelled pieces (Piece.simpleText pieces).toList := by
  induction pieces with
  | nil => exact .nil
  | cons piece rest ih =>
      have hrest := ih fun v hv => h v (List.mem_cons_of_mem _ hv)
      cases piece with
      | sql text =>
          rw [Piece.simpleText, String.toList_append]
          exact .sql text hrest
      | value v =>
          rw [Piece.simpleText, String.toList_append, String.toList_append, List.append_assoc]
          exact .value v (h v List.mem_cons_self) hrest

theorem written_bound (p : Placeholder) (before : List Typed) {after : List Typed}
    {pieces : List Piece}
    (h : forall index v, .value v ∈ pieces ->
      Parameters.get? ⟨before ++ Piece.values pieces ++ after⟩ index = some v ->
        spelled v (p.written index).toList) :
    Written spelled pieces (Mark.text p (Piece.marks before.length pieces)).toList := by
  induction pieces generalizing before with
  | nil => exact .nil
  | cons piece rest ih =>
      cases piece with
      | sql text =>
          have hrest := ih before fun index v hv => h index v (List.mem_cons_of_mem _ hv)
          rw [Piece.marks, Mark.text_cons, String.toList_append]
          exact .sql text hrest
      | value v =>
          have hget : Parameters.get? ⟨before ++ Piece.values (.value v :: rest) ++ after⟩
              (before.length + 1) = some v := by
            simp [Parameters.get?, Piece.values]
          have hrest : Written spelled rest
              (Mark.text p (Piece.marks (before ++ [v]).length rest)).toList := by
            apply ih (before ++ [v])
            intro index w hw hindex
            apply h index w (List.mem_cons_of_mem _ hw)
            simpa [Piece.values] using hindex
          rw [List.length_append, List.length_singleton] at hrest
          rw [Piece.marks, Mark.text_cons, Mark.text_cons, String.toList_append,
            String.toList_append]
          exact .value v (h _ v List.mem_cons_self hget) hrest

/-!
## Parts
-/

namespace Part

variable {scopes : Scopes}

theorem pieces_cons (part : Part) (rest : List Part) :
    pieces scopes (part :: rest) = pieces scopes [part] ++ pieces scopes rest := by
  simp [pieces, allLeaves]

theorem pieces_nested (parts : List Part) :
    pieces scopes [.nested parts] = pieces scopes parts := by
  simp [pieces, allLeaves, leaves]

/-- Appending a part may merge a text into the last one, but writes the same characters. -/
theorem written_pushPart {part : Part} {parts : List Part} {written : List Char}
    (h : Written spelled (pieces scopes (pushPart part parts)) written) :
    exists before after, written = before ++ after ∧
      Written spelled (pieces scopes parts) before ∧
        Written spelled (pieces scopes [part]) after := by
  induction parts generalizing written with
  | nil => exact ⟨[], written, rfl, .nil, h⟩
  | cons first rest ih =>
      cases rest with
      | nil =>
          have hcases : (exists s t, first = .text s ∧ part = .text t) ∨
              pushPart part [first] = [first, part] := by
            unfold pushPart
            split
            · exact Or.inl ⟨_, _, rfl, rfl⟩
            · exact Or.inr rfl
          rcases hcases with ⟨s, t, rfl, rfl⟩ | hpush
          · have hmerged := Written.eq_of_sql h
            rw [String.toList_append] at hmerged
            refine ⟨s.toList, t.toList, hmerged, ?_, ?_⟩
            · exact Written.of_sql s
            · exact Written.of_sql t
          · rw [hpush, pieces_cons] at h
            exact h.split
      | cons next more =>
          rw [pushPart, pieces_cons] at h
          rcases h.split with ⟨head, tail, rfl, hhead, htail⟩
          rcases ih htail with ⟨before, after, rfl, hbefore, hafter⟩
          refine ⟨head ++ before, after, (List.append_assoc _ _ _).symm, ?_, hafter⟩
          rw [pieces_cons]
          exact hhead.append hbefore

end Part

/-!
## Fragments
-/

def Fragment.WrittenAs (spelled : Typed -> List Char -> Prop) (scopes : Scopes) (f : Fragment)
    (written : List Char) : Prop :=
  Written spelled (Part.pieces scopes f.parts) written

namespace Fragment.WrittenAs

variable {scopes : Scopes} {f : Fragment} {written : List Char}

theorem eq_of_empty (h : Fragment.empty.WrittenAs spelled scopes written) : written = [] := by
  cases h
  rfl

theorem of_text {s : String} (h : (f.text s).WrittenAs spelled scopes written) :
    exists before, written = before ++ s.toList ∧ f.WrittenAs spelled scopes before := by
  rcases Part.written_pushPart h with ⟨before, after, rfl, hbefore, hafter⟩
  have htext := Written.eq_of_sql hafter
  exact ⟨before, by rw [htext], hbefore⟩

theorem of_nested {inner : Fragment} (h : (f.nested inner).WrittenAs spelled scopes written) :
    exists before after, written = before ++ after ∧ f.WrittenAs spelled scopes before ∧
      inner.WrittenAs spelled scopes after := by
  rcases Part.written_pushPart h with ⟨before, after, rfl, hbefore, hafter⟩
  rw [Part.pieces_nested] at hafter
  exact ⟨before, after, rfl, hbefore, hafter⟩

theorem of_column {slot : Slot} {name : String}
    (h : (f.column slot name).WrittenAs spelled scopes written) :
    exists before, written = before ++ (scopes.columnText slot name).toList ∧
      f.WrittenAs spelled scopes before := by
  rcases Part.written_pushPart h with ⟨before, after, rfl, hbefore, hafter⟩
  have hcolumn : after = (scopes.columnText slot name).toList := Written.eq_of_sql hafter
  exact ⟨before, by rw [hcolumn], hbefore⟩

theorem of_value {v : Typed} (h : (f.value v).WrittenAs spelled scopes written) :
    exists before after, written = before ++ after ∧ f.WrittenAs spelled scopes before ∧
      ((exists literal, v.value.inlineLiteral? = some literal ∧ after = literal.toList) ∨
        (v.value.inlineLiteral? = none ∧
          exists spelling, spelled v spelling ∧ after = spelling ++ (castOf v).toList)) := by
  rcases Part.written_pushPart h with ⟨before, after, rfl, hbefore, hafter⟩
  refine ⟨before, after, rfl, hbefore, ?_⟩
  cases hinline : v.value.inlineLiteral? with
  | some literal =>
      have hpieces : Part.pieces scopes [.value v] = [.sql literal] := by
        simp [Part.pieces, Part.allLeaves, Part.leaves, Placed.piece, hinline]
      rw [hpieces] at hafter
      exact Or.inl ⟨literal, rfl, Written.eq_of_sql hafter⟩
  | none =>
      have hpieces : Part.pieces scopes [.value v] = [.value v] := by
        simp [Part.pieces, Part.allLeaves, Part.leaves, Placed.piece, hinline]
      rw [hpieces] at hafter
      right
      refine ⟨rfl, ?_⟩
      cases hafter with
      | value _ hv hrest =>
          cases hrest
          exact ⟨_, hv, by rw [List.append_nil]⟩

theorem of_foldl {separator : String} {items : List Fragment}
    (h : (items.foldl (fun f item => (f.text separator).nested item) f).WrittenAs spelled scopes
      written) :
    exists before texts,
      written = before ++ (texts.map fun text => separator.toList ++ text).flatten ∧
        f.WrittenAs spelled scopes before ∧
          List.Forall₂ (fun item text => item.WrittenAs spelled scopes text) items texts := by
  induction items generalizing f with
  | nil => exact ⟨written, [], by simp, h, .nil⟩
  | cons item rest ih =>
      rcases ih h with ⟨_, texts, rfl, hfirst, hrest⟩
      rcases hfirst.of_nested with ⟨_, text, rfl, hseparator, htext⟩
      rcases hseparator.of_text with ⟨before, rfl, hbefore⟩
      refine ⟨before, text :: texts, ?_, hbefore, .cons htext hrest⟩
      simp only [List.map_cons, List.flatten_cons, List.append_assoc]

end Fragment.WrittenAs

end TypedQuery
