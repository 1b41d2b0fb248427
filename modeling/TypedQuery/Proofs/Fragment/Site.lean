import TypedQuery.Proofs.Fragment.Anchor
import TypedQuery.Proofs.Fragment.Placeholder

/-!
# Places in a fragment

A site is a fragment with one part taken out, inside any number of nested fragments and frames.  The
pieces of the part that is put there stand between pieces that do not depend on it.  A stretch is a
run of neighbouring parts; what is appended later leaves it as it is, unless it ends in a text.
-/

namespace TypedQuery

inductive Site where
  | here (before after : List Part)
  | nested (before : List Part) (inner : Site) (after : List Part)
  | frame (before : List Part) (aliases : AliasMap) (unqualified : Bool) (inner : Site)
      (after : List Part)

namespace Site

def fill (part : Part) : Site -> List Part
  | here before after => before ++ part :: after
  | nested before inner after => before ++ .nested (inner.fill part) :: after
  | frame before aliases unqualified inner after =>
      before ++ .frame aliases unqualified (inner.fill part) :: after

def scopes (outer : Scopes) : Site -> Scopes
  | here _ _ => outer
  | nested _ inner _ => inner.scopes outer
  | frame _ aliases unqualified inner _ => inner.scopes (outer.push aliases unqualified)

def piecesBefore (outer : Scopes) : Site -> List Piece
  | here before _ => Part.pieces outer before
  | nested before inner _ => Part.pieces outer before ++ inner.piecesBefore outer
  | frame before aliases unqualified inner _ =>
      Part.pieces outer before ++ inner.piecesBefore (outer.push aliases unqualified)

def piecesAfter (outer : Scopes) : Site -> List Piece
  | here _ after => Part.pieces outer after
  | nested _ inner after => inner.piecesAfter outer ++ Part.pieces outer after
  | frame _ aliases unqualified inner after =>
      inner.piecesAfter (outer.push aliases unqualified) ++ Part.pieces outer after

theorem pieces_around (outer : Scopes) (before after : List Part) (part : Part) :
    Part.pieces outer (before ++ part :: after) =
      Part.pieces outer before ++ Part.pieces outer [part] ++ Part.pieces outer after := by
  rw [List.append_cons, Part.pieces_append, Part.pieces_append]

theorem pieces_fill (site : Site) (outer : Scopes) (part : Part) :
    Part.pieces outer (site.fill part) =
      site.piecesBefore outer ++ Part.pieces (site.scopes outer) [part] ++
        site.piecesAfter outer := by
  induction site generalizing outer with
  | here before after => exact pieces_around outer before after part
  | nested before inner after ih =>
      have hnested := Part.pieces_singleton outer (.nested (inner.fill part))
      rw [Part.leaves, <- Part.pieces] at hnested
      rw [fill, pieces_around, hnested, ih]
      simp only [scopes, piecesBefore, piecesAfter, List.append_assoc]
  | frame before aliases unqualified inner after ih =>
      have hframe := Part.pieces_singleton outer (.frame aliases unqualified (inner.fill part))
      rw [Part.leaves, <- Part.pieces] at hframe
      rw [fill, pieces_around, hframe, ih]
      simp only [scopes, piecesBefore, piecesAfter, List.append_assoc]

end Site

/-!
## Stretches
-/

namespace Fragment

/-- The parts stand in the fragment one after the other, and do not end in a text. -/
structure HasStretch (f : Fragment) (parts : List Part) : Prop where
  isInfix : parts <:+: f.parts
  closed : forall s, parts.getLast? ≠ some (.text s)

variable {f : Fragment} {parts : List Part}

theorem pushPart_concat (part : Part) {last : Part} (hlast : forall s, last ≠ .text s)
    (parts : List Part) : pushPart part (parts ++ [last]) = parts ++ [last] ++ [part] := by
  rcases pushPart_cases part (parts ++ [last]) with hpush | ⟨before, s, t, hparts, -, -⟩
  · exact hpush
  · have htext : last = .text s := (List.cons.inj (List.append_inj' hparts rfl).2).1
    exact absurd htext (hlast s)

theorem parts_table (f : Fragment) (slot : Slot) (t : Table) :
    (f.table slot t).parts = f.parts ++ [.table slot t] := by
  rcases pushPart_cases (.table slot t) f.parts with hpush | ⟨_, _, _, -, htext, -⟩
  · exact hpush
  · cases htext

theorem hasStretch_table (f : Fragment) (slot : Slot) (t : Table) (s : String) (inner : Fragment) :
    (((f.table slot t).text s).nested inner).HasStretch
      [.table slot t, .text s, .nested inner.parts] := by
  have htext : ((f.table slot t).text s).parts = f.parts ++ [.table slot t] ++ [.text s] := by
    have htable : forall text, Part.table slot t ≠ .text text := by
      intro text
      exact Part.noConfusion
    have hpush := pushPart_concat (.text s) htable f.parts
    rw [<- f.parts_table slot t] at hpush ⊢
    exact hpush
  have hnested : (((f.table slot t).text s).nested inner).parts =
      f.parts ++ [.table slot t] ++ [.text s] ++ [.nested inner.parts] := by
    rcases pushPart_cases (.nested inner.parts) ((f.table slot t).text s).parts with
      hpush | ⟨_, _, _, -, hpart, -⟩
    · rw [<- htext]
      exact hpush
    · cases hpart
  refine ⟨⟨f.parts, [], ?_⟩, ?_⟩
  · rw [hnested]
    simp
  · intro s' h
    cases h

theorem HasStretch.push (h : f.HasStretch parts) (part : Part) :
    (f.push part).HasStretch parts := by
  refine ⟨?_, h.closed⟩
  rcases h.isInfix with ⟨before, after, hparts⟩
  rcases pushPart_cases part f.parts with hpush | ⟨front, s, t, hfront, -, hpush⟩
  · refine ⟨before, after ++ [part], ?_⟩
    rw [Fragment.push, hpush, <- hparts]
    simp
  · -- The text that grows stands after the stretch, because the stretch does not end in one.
    rw [hfront] at hparts
    rcases List.eq_nil_or_concat after with rfl | ⟨more, last, rfl⟩
    · have hlast := congrArg List.getLast? hparts
      rw [List.append_nil, List.getLast?_append, List.getLast?_concat] at hlast
      cases hend : parts.getLast? with
      | none =>
          have hnil := List.getLast?_eq_none_iff.mp hend
          subst hnil
          exact List.nil_infix
      | some part' =>
          rw [hend] at hlast
          exact absurd (hend.trans hlast) (h.closed s)
    · rw [List.concat_eq_append, <- List.append_assoc] at hparts
      have hmore := (List.append_inj' hparts rfl).1
      refine ⟨before, more ++ [.text (s ++ t)], ?_⟩
      rw [Fragment.push, hpush, <- hmore]
      simp

theorem HasStretch.joined (h : f.HasStretch parts) (items : List Fragment) (separator : String) :
    (f.joined items separator).HasStretch parts := by
  have hrest : forall (rest : List Fragment) (g : Fragment), g.HasStretch parts ->
      (rest.foldl (fun f item => (f.text separator).nested item) g).HasStretch parts := by
    intro rest
    induction rest with
    | nil =>
        intro g hg
        exact hg
    | cons item more ih =>
        intro g hg
        exact ih _ ((hg.push _).push _)
  cases items with
  | nil => exact h
  | cons item rest => exact hrest rest _ (h.push _)

end Fragment

/-!
## Appending behind other parts
-/

/-- The parts do not end in a text, so that nothing can be merged into them. -/
def Part.Closed (parts : List Part) : Prop := forall s, parts.getLast? ≠ some (.text s)

theorem Part.closed_concat (parts : List Part) {last : Part} (h : forall s, last ≠ .text s) :
    Closed (parts ++ [last]) := by
  intro s hlast
  rw [List.getLast?_concat] at hlast
  exact h s (Option.some.inj hlast)

theorem Part.Closed.append {before after : List Part} (hbefore : Closed before)
    (hafter : Closed after) : Closed (before ++ after) := by
  intro s hlast
  rw [List.getLast?_append] at hlast
  cases hend : after.getLast? with
  | some last =>
      rw [hend] at hlast
      exact hafter s (hend.trans hlast)
  | none =>
      rw [hend] at hlast
      exact hbefore s hlast

theorem pushPart_append {before : List Part} (hclosed : Part.Closed before) (part : Part)
    (rest : List Part) : pushPart part (before ++ rest) = before ++ pushPart part rest := by
  induction before with
  | nil => rfl
  | cons first more ih =>
      cases more with
      | nil =>
          cases rest with
          | nil =>
              have hfirst : forall s, first ≠ .text s := by
                rintro s rfl
                exact hclosed s rfl
              exact Fragment.pushPart_concat part hfirst []
          | cons next rest => rfl
      | cons next more =>
          have htail : Part.Closed (next :: more) := fun s => hclosed s
          rw [List.cons_append, List.cons_append, pushPart, <- List.cons_append, ih htail]
          rfl

namespace Fragment

def following (f : Fragment) (before : List Part) : Fragment := ⟨before ++ f.parts⟩

theorem following_empty (before : List Part) : empty.following before = ⟨before⟩ :=
  congrArg Fragment.mk (List.append_nil before)

variable {before : List Part}

theorem push_following (hclosed : Part.Closed before) (f : Fragment) (part : Part) :
    (f.following before).push part = (f.push part).following before :=
  congrArg Fragment.mk (pushPart_append hclosed part f.parts)

theorem joined_following (hclosed : Part.Closed before) (f : Fragment) (items : List Fragment)
    (separator : String) :
    (f.following before).joined items separator = (f.joined items separator).following before := by
  have hrest : forall (rest : List Fragment) (g : Fragment),
      rest.foldl (fun f item => (f.text separator).nested item) (g.following before) =
        (rest.foldl (fun f item => (f.text separator).nested item) g).following before := by
    intro rest
    induction rest with
    | nil =>
        intro g
        rfl
    | cons item more ih =>
        intro g
        rw [List.foldl_cons, List.foldl_cons, text, nested, push_following hclosed,
          push_following hclosed]
        exact ih _
  cases items with
  | nil => rfl
  | cons item rest =>
      rw [joined, joined, nested, push_following hclosed]
      exact hrest rest _

theorem parts_nested (f inner : Fragment) :
    (f.nested inner).parts = f.parts ++ [.nested inner.parts] := by
  rcases pushPart_cases (.nested inner.parts) f.parts with hpush | ⟨_, _, _, -, hnested, -⟩
  · exact hpush
  · cases hnested

theorem closed_nested (f inner : Fragment) : Part.Closed (f.nested inner).parts := by
  rw [parts_nested]
  exact Part.closed_concat _ fun _ => Part.noConfusion

theorem closed_table (f : Fragment) (slot : Slot) (t : Table) :
    Part.Closed (f.table slot t).parts := by
  rw [parts_table]
  exact Part.closed_concat _ fun _ => Part.noConfusion

theorem closed_joined (f : Fragment) {items : List Fragment} (hitems : items ≠ [])
    (separator : String) : Part.Closed (f.joined items separator).parts := by
  have hrest : forall (rest : List Fragment) (g : Fragment), Part.Closed g.parts ->
      Part.Closed (rest.foldl (fun f item => (f.text separator).nested item) g).parts := by
    intro rest
    induction rest with
    | nil =>
        intro g hg
        exact hg
    | cons item more ih =>
        intro g _
        exact ih _ (closed_nested _ item)
  cases items with
  | nil => exact absurd rfl hitems
  | cons item rest => exact hrest rest _ (closed_nested f item)

end Fragment

end TypedQuery
