import Mathlib.Data.List.Forall2
import TypedQuery.Proofs.Fragment.Alias
import TypedQuery.Proofs.Fragment.Anchor
import TypedQuery.Proofs.Fragment.Placeholder

/-!
# The text of a fragment

Every builder operation appends to the text of a fragment.  That texts are merged as they are
appended cannot be seen in it, nor how a single table of the innermost frame is qualified.
-/

namespace TypedQuery

def Fragment.simpleIn (scopes : Scopes) (f : Fragment) : String :=
  Piece.simpleText (Part.pieces scopes f.parts)

theorem Part.simpleText_pushPart (scopes : Scopes) (part : Part) (parts : List Part) :
    Piece.simpleText (pieces scopes (pushPart part parts)) =
      Piece.simpleText (pieces scopes parts) ++ Piece.simpleText (pieces scopes [part]) := by
  rcases Fragment.pushPart_cases part parts with hpush | ⟨before, s, t, rfl, rfl, hpush⟩
  · rw [hpush, pieces_append, Piece.simpleText_append]
  · rw [hpush, pieces_append, pieces_append, Piece.simpleText_append, Piece.simpleText_append]
    simp [pieces, allLeaves, leaves, Placed.piece, Piece.simpleText, String.append_assoc]

namespace Fragment

variable (scopes : Scopes) (f : Fragment)

theorem simpleIn_push (part : Part) :
    (f.push part).simpleIn scopes =
      f.simpleIn scopes ++ Piece.simpleText (Part.pieces scopes [part]) :=
  Part.simpleText_pushPart scopes part f.parts

@[simp] theorem simpleIn_empty : empty.simpleIn scopes = "" := rfl

@[simp] theorem simpleIn_text (s : String) :
    (f.text s).simpleIn scopes = f.simpleIn scopes ++ s := by
  rw [text, simpleIn_push]
  simp [Part.pieces, Part.allLeaves, Part.leaves, Placed.piece, Piece.simpleText]

@[simp] theorem simpleIn_nested (inner : Fragment) :
    (f.nested inner).simpleIn scopes = f.simpleIn scopes ++ inner.simpleIn scopes := by
  rw [nested, simpleIn_push, Part.pieces_singleton, Part.leaves]
  rfl

@[simp] theorem simpleIn_frame (inner : Frame) :
    (f.frame inner).simpleIn scopes =
      f.simpleIn scopes ++ inner.query.simpleIn (scopes.push inner.aliases inner.unqualified) := by
  rw [frame, simpleIn_push, Part.pieces_singleton, Part.leaves]
  rfl

@[simp] theorem simpleIn_joined (items : List Fragment) (separator : String) :
    (f.joined items separator).simpleIn scopes =
      f.simpleIn scopes ++ separator.intercalate (items.map (simpleIn scopes)) := by
  have hrest : forall (rest : List Fragment) (g : Fragment) (written : String),
      g.simpleIn scopes = f.simpleIn scopes ++ written ->
        (rest.foldl (fun f item => (f.text separator).nested item) g).simpleIn scopes =
          f.simpleIn scopes ++ separator.intercalate (written :: rest.map (simpleIn scopes)) := by
    intro rest
    induction rest with
    | nil =>
        intro g written hg
        rw [List.foldl_nil, List.map_nil, String.intercalate_singleton]
        exact hg
    | cons item more ih =>
        intro g written hg
        have hnext : ((g.text separator).nested item).simpleIn scopes =
            f.simpleIn scopes ++ (written ++ separator ++ item.simpleIn scopes) := by
          rw [simpleIn_nested, simpleIn_text, hg]
          simp only [String.append_assoc]
        rw [List.foldl_cons, ih _ _ hnext, String.intercalate_cons_append, List.map_cons,
          String.intercalate_cons_cons]
  cases items with
  | nil =>
      rw [List.map_nil, String.intercalate_nil, String.append_empty]
      rfl
  | cons item rest => exact hrest rest _ _ (simpleIn_nested scopes f item)

theorem renderSimple_framed (frame : Frame) :
    frame.framed.renderSimple =
      frame.query.simpleIn (Scopes.push {} frame.aliases frame.unqualified) := by
  have htext : frame.framed.simpleIn {} = frame.framed.renderSimple :=
    (renderSimple_eq frame.framed).symm
  rw [<- htext, Frame.framed, simpleIn_frame, simpleIn_empty, String.empty_append]

/-!
## What comes later
-/

def Extends (f g : Fragment) : Prop :=
  forall scopes : Scopes, exists tail, f.simpleIn scopes = g.simpleIn scopes ++ tail

namespace Extends

variable {f g h : Fragment}

theorem refl (f : Fragment) : f.Extends f :=
  fun _ => ⟨"", String.append_empty.symm⟩

theorem trans (hfg : f.Extends g) (hgh : g.Extends h) : f.Extends h := by
  intro scopes
  rcases hfg scopes with ⟨last, hf⟩
  rcases hgh scopes with ⟨middle, hg⟩
  exact ⟨middle ++ last, by rw [hf, hg, String.append_assoc]⟩

theorem push (hf : f.Extends g) (part : Part) : (f.push part).Extends g := by
  intro scopes
  rcases hf scopes with ⟨tail, htail⟩
  exact ⟨_, by rw [simpleIn_push, htail, String.append_assoc]⟩

theorem joined (hf : f.Extends g) (items : List Fragment) (separator : String) :
    (f.joined items separator).Extends g := by
  intro scopes
  rcases hf scopes with ⟨tail, htail⟩
  exact ⟨_, by rw [simpleIn_joined, htail, String.append_assoc]⟩

end Extends

end Fragment

/-!
## Frames that write alike
-/

structure Scopes.Alike (scopes scopes' : Scopes) : Prop where
  tableName : forall slot, scopes.tableName? slot = scopes'.tableName? slot
  qualifierName : forall slot, scopes.qualifierName? slot = scopes'.qualifierName? slot

/-- The same slots are bound, each to a table of its own name in both or to the same alias. -/
def AliasMap.Alike (aliases aliases' : AliasMap) : Prop :=
  forall slot, (aliases.binding? slot).map Binding.writtenName? =
    (aliases'.binding? slot).map Binding.writtenName?

theorem AliasMap.Alike.contains_eq {aliases aliases' : AliasMap} (h : aliases.Alike aliases')
    (slot : Slot) : aliases.contains slot = aliases'.contains slot := by
  have hbound := congrArg Option.isSome (h slot)
  rwa [Option.isSome_map, Option.isSome_map] at hbound

theorem AliasMap.alike_of_forall₂ {aliases aliases' : AliasMap}
    (h : List.Forall₂ (fun b b' => b.slot = b'.slot ∧ b.writtenName? = b'.writtenName?)
      aliases.bindings aliases'.bindings) : aliases.Alike aliases' := by
  intro slot
  unfold AliasMap.binding?
  generalize aliases.bindings = bindings, aliases'.bindings = bindings' at h
  induction h with
  | nil => rfl
  | cons hb _ ih =>
      rw [List.find?_cons, List.find?_cons, hb.1]
      split
      · exact congrArg some hb.2
      · exact ih

namespace Scopes

variable {scopes scopes' : Scopes} {aliases aliases' : AliasMap}

theorem tableName?_push_eq (scopes : Scopes) (aliases : AliasMap) (unqualified : Bool)
    (slot : Slot) :
    (scopes.push aliases unqualified).tableName? slot =
      ((aliases.binding? slot).map Binding.writtenName?).getD (scopes.tableName? slot) := by
  unfold tableName? binding? push
  rw [List.findSome?_cons]
  dsimp only
  cases aliases.binding? slot <;> rfl

theorem Alike.push (h : scopes.Alike scopes') (haliases : aliases.Alike aliases')
    (unqualified : Bool) :
    (scopes.push aliases unqualified).Alike (scopes'.push aliases' unqualified) := by
  have hname : forall slot, (scopes.push aliases unqualified).tableName? slot =
      (scopes'.push aliases' unqualified).tableName? slot := by
    intro slot
    rw [tableName?_push_eq, tableName?_push_eq, haliases slot, h.tableName]
  refine ⟨hname, ?_⟩
  intro slot
  cases unqualified with
  | false => exact hname slot
  | true =>
      change (if aliases.contains slot then none else _) =
        if aliases'.contains slot then none else _
      rw [haliases.contains_eq, hname]

/-- A single table is written by its own name, so that leaving out the qualifier changes nothing. -/
theorem alike_single (scopes : Scopes) (slot : Slot) (t : Table) (unqualified : Bool) :
    (scopes.push (.single slot t) unqualified).Alike (scopes.push (.single slot t) false) := by
  have hname : forall other, (scopes.push (.single slot t) unqualified).tableName? other =
      (scopes.push (.single slot t) false).tableName? other :=
    fun other => (scopes.tableName?_push_eq _ _ other).trans
      (scopes.tableName?_push_eq _ _ other).symm
  refine ⟨hname, ?_⟩
  intro other
  cases unqualified with
  | false => rfl
  | true =>
      change (if (AliasMap.single slot t).contains other then none else
        (scopes.push (.single slot t) true).tableName? other) =
          (scopes.push (.single slot t) false).tableName? other
      split
      · rename_i hcontains
        unfold AliasMap.contains AliasMap.single at hcontains
        rw [AliasMap.binding?_bind] at hcontains
        split at hcontains
        · rename_i hslot
          subst hslot
          rw [tableName?_push_eq, AliasMap.binding?_single]
          simp [Binding.writtenName?]
        · cases hcontains
      · exact hname other

end Scopes

mutual

theorem Part.pieces_leaves_of_alike {scopes scopes' : Scopes} (h : scopes.Alike scopes')
    (part : Part) :
    (part.leaves scopes).map Placed.piece = (part.leaves scopes').map Placed.piece := by
  cases part with
  | text s => rfl
  | value v => rfl
  | column slot name =>
      simp only [leaves, List.map_cons, List.map_nil, Placed.piece, Scopes.columnText,
        Scopes.qualifier?_eq, h.qualifierName]
  | table slot t =>
      simp only [leaves, List.map_cons, List.map_nil, Placed.piece, Scopes.tableText,
        Scopes.tableAlias?_eq, h.tableName]
  | nested parts => exact Part.pieces_of_alike h parts
  | frame aliases unqualified parts =>
      exact Part.pieces_of_alike (h.push (fun _ => rfl) unqualified) parts

/-- Frames that write alike give the same pieces, however deep in them. -/
theorem Part.pieces_of_alike {scopes scopes' : Scopes} (h : scopes.Alike scopes')
    (parts : List Part) : pieces scopes parts = pieces scopes' parts := by
  cases parts with
  | nil => rfl
  | cons part rest =>
      have hfirst := Part.pieces_leaves_of_alike h part
      have hrest := Part.pieces_of_alike h rest
      simp only [pieces, allLeaves, List.map_append] at hrest ⊢
      rw [hfirst, hrest]

end

end TypedQuery
