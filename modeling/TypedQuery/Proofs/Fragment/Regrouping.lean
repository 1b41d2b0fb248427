import Mathlib.Data.List.Chain
import TypedQuery.Proofs.Fragment.Site

/-!
# Regrouping a fragment

A rendering is put together from what the leaves of the fragment contribute, each under the frames
it sits in and behind the parameters of those before it.  How the leaves are grouped into nested
fragments, and where neighbouring texts were merged, leaves no trace in it; and the aliases of a
frame reach the leaves inside the frame and no others.
-/

namespace TypedQuery

/-!
## One rendering behind another
-/

def Rendered.append (r next : Rendered) : Rendered :=
  { sql := r.sql ++ next.sql, params := ⟨r.params.values ++ next.params.values⟩ }

theorem Rendered.append_assoc (r next last : Rendered) :
    (r.append next).append last = r.append (next.append last) := by
  simp [append, String.append_assoc]

theorem Rendered.append_empty (r : Rendered) : r.append {} = r := by
  simp [append]

theorem Rendered.empty_append (r : Rendered) : ({} : Rendered).append r = r := by
  simp [append]

def Leaf.part : Leaf -> Part
  | .text s => .text s
  | .value v => .value v
  | .column slot name => .column slot name
  | .table slot t => .table slot t

namespace Placed

/-- What the renderer adds for a leaf alone, with the given parameters before it. -/
def rendering (mode : RenderMode) (before : Parameters) (p : Placed) : Rendered :=
  let r := mode.writePart p.scopes { params := before } p.leaf.part
  { r with params := ⟨r.params.values.drop before.size⟩ }

def renderings (mode : RenderMode) (before : Parameters) : List Placed -> Rendered
  | [] => {}
  | p :: rest =>
      let first := p.rendering mode before
      first.append (renderings mode ⟨before.values ++ first.params.values⟩ rest)

theorem writePart_leaf (mode : RenderMode) (r : Rendered) (p : Placed) :
    mode.writePart p.scopes r p.leaf.part = mode.writePiece r p.piece := by
  rw [<- mode.writeLeaf_eq]
  rcases p with ⟨scopes, leaf⟩
  cases leaf <;> rfl

theorem writePart_eq_append (mode : RenderMode) (r : Rendered) (p : Placed) :
    mode.writePart p.scopes r p.leaf.part = r.append (p.rendering mode r.params) := by
  rw [rendering, writePart_leaf, writePart_leaf]
  cases p.piece with
  | sql text => simp [RenderMode.writePiece, Rendered.write, Rendered.append, Parameters.size]
  | value v =>
      cases mode with
      | simple => simp [RenderMode.writePiece, Rendered.write, Rendered.append, Parameters.size]
      | bound placeholder =>
          simp [RenderMode.writePiece, Rendered.append, Parameters.push, Parameters.size,
            String.append_assoc]

/-- Of the parameters before a leaf only their number counts. -/
theorem rendering_congr (mode : RenderMode) {before others : Parameters}
    (hsize : before.size = others.size) (p : Placed) :
    p.rendering mode before = p.rendering mode others := by
  rw [rendering, rendering, writePart_leaf, writePart_leaf]
  cases p.piece with
  | sql text => simp [RenderMode.writePiece, Rendered.write, Parameters.size]
  | value v =>
      cases mode with
      | simple => simp [RenderMode.writePiece, Rendered.write, Parameters.size]
      | bound placeholder =>
          unfold Parameters.size at hsize
          simp [RenderMode.writePiece, Parameters.push, Parameters.size, hsize]

theorem foldl_writeLeaf (mode : RenderMode) (r : Rendered) (leaves : List Placed) :
    leaves.foldl mode.writeLeaf r = r.append (renderings mode r.params leaves) := by
  induction leaves generalizing r with
  | nil => exact r.append_empty.symm
  | cons p rest ih =>
      have hfirst : mode.writeLeaf r p = r.append (p.rendering mode r.params) := by
        rw [mode.writeLeaf_eq, <- writePart_leaf, writePart_eq_append]
      rw [List.foldl_cons, ih, hfirst, Rendered.append_assoc]
      rfl

end Placed

namespace RenderMode

theorem writeParts_eq_renderings (mode : RenderMode) (scopes : Scopes) (r : Rendered)
    (parts : List Part) :
    mode.writeParts scopes r parts =
      r.append (Placed.renderings mode r.params (Part.allLeaves scopes parts)) := by
  rw [mode.writeParts_eq_foldl, Placed.foldl_writeLeaf]

theorem writeParts_append (mode : RenderMode) (scopes : Scopes) (r : Rendered)
    (parts others : List Part) :
    mode.writeParts scopes r (parts ++ others) =
      mode.writeParts scopes (mode.writeParts scopes r parts) others := by
  induction parts generalizing r with
  | nil => rfl
  | cons part rest ih => exact ih (mode.writePart scopes r part)

end RenderMode

/-!
## Groups
-/

namespace Part

/-- Parts that differ in how they are grouped: a nested fragment may be opened and two neighbouring
texts may be merged, anywhere in the tree, or the other way round. -/
inductive Regrouped : List Part -> List Part -> Prop where
  | refl (parts : List Part) : Regrouped parts parts
  | symm {parts others : List Part} (h : Regrouped parts others) : Regrouped others parts
  | trans {parts others more : List Part} (h : Regrouped parts others)
      (hmore : Regrouped others more) : Regrouped parts more
  | opened (inner : List Part) : Regrouped [.nested inner] inner
  | merged (s t : String) : Regrouped [.text s, .text t] [.text (s ++ t)]
  | within {parts others : List Part} (h : Regrouped parts others) (before after : List Part) :
      Regrouped (before ++ parts ++ after) (before ++ others ++ after)
  | framed {parts others : List Part} (h : Regrouped parts others) (aliases : AliasMap)
      (unqualified : Bool) :
      Regrouped [.frame aliases unqualified parts] [.frame aliases unqualified others]

/-- However parts are grouped, they are rendered alike in every mode and under all frames. -/
theorem Regrouped.writeParts_eq {parts others : List Part} (h : Regrouped parts others)
    (mode : RenderMode) (scopes : Scopes) (r : Rendered) :
    mode.writeParts scopes r parts = mode.writeParts scopes r others := by
  induction h generalizing scopes r with
  | refl parts => rfl
  | symm _ ih => exact (ih scopes r).symm
  | trans _ _ ih ihmore => exact (ih scopes r).trans (ihmore scopes r)
  | opened inner => rfl
  | merged s t =>
      simp only [RenderMode.writeParts, RenderMode.writePart, Rendered.write]
      rw [String.append_assoc]
  | within _ before after ih =>
      simp only [RenderMode.writeParts_append, ih]
  | framed _ aliases unqualified ih => exact ih (scopes.push aliases unqualified) r

end Part

namespace Fragment

theorem regrouped_push (f : Fragment) (part : Part) :
    Part.Regrouped (f.push part).parts (f.parts ++ [part]) := by
  rcases pushPart_cases part f.parts with hpush | ⟨before, s, t, hparts, rfl, hpush⟩
  · rw [push, hpush]
    exact .refl _
  · rw [push, hpush, hparts]
    have hmerged := Part.Regrouped.within (.symm (.merged s t)) before []
    simpa using hmerged

theorem regrouped_nested (f inner : Fragment) :
    Part.Regrouped (f.nested inner).parts (f.parts ++ inner.parts) := by
  have hopened := Part.Regrouped.within (.opened inner.parts) f.parts []
  rw [List.append_nil, List.append_nil] at hopened
  exact .trans (f.regrouped_push (.nested inner.parts)) hopened

theorem intercalate_cons {α : Type} (separator : List α) (first : List α) (rest : List (List α)) :
    separator.intercalate (first :: rest) =
      first ++ rest.flatMap fun item => separator ++ item := by
  induction rest generalizing first with
  | nil => simp
  | cons next more ih =>
      rw [List.intercalate_cons_cons, ih, List.flatMap_cons, List.append_assoc, List.append_assoc]

theorem regrouped_separated (separator : String) (items : List Fragment) (f : Fragment) :
    Part.Regrouped (items.foldl (fun f item => (f.text separator).nested item) f).parts
      (f.parts ++ items.flatMap fun item => [.text separator] ++ item.parts) := by
  induction items generalizing f with
  | nil => simpa using Part.Regrouped.refl f.parts
  | cons item rest ih =>
      have hitem := (f.text separator).regrouped_nested item
      have htext := Part.Regrouped.within (f.regrouped_push (.text separator)) [] item.parts
      have hboth := Part.Regrouped.within (.trans hitem htext) []
        (rest.flatMap fun item => [.text separator] ++ item.parts)
      rw [List.foldl_cons, List.flatMap_cons]
      refine .trans (ih _) ?_
      simpa using hboth

theorem regrouped_joined (f : Fragment) (items : List Fragment) (separator : String) :
    Part.Regrouped (f.joined items separator).parts
      (f.parts ++ [.text separator].intercalate (items.map Fragment.parts)) := by
  cases items with
  | nil => simpa [joined] using Part.Regrouped.refl f.parts
  | cons item rest =>
      have hitem := Part.Regrouped.within (f.regrouped_nested item) []
        (rest.flatMap fun item => [.text separator] ++ item.parts)
      rw [joined, List.map_cons, intercalate_cons, List.flatMap_map]
      refine .trans (regrouped_separated separator rest _) ?_
      simpa using hitem

end Fragment

/-!
## Frames
-/

theorem Placed.values_renderings (mode : RenderMode) (before : Parameters) (scopes : Scopes)
    (parts : List Part) :
    (renderings mode before (Part.allLeaves scopes parts)).params.values =
      match mode with
      | .simple => []
      | .bound _ => (Part.allValues parts).filter Typed.isBound := by
  have hparams := congrArg (fun r => r.params.values)
    (mode.writeParts_eq_renderings scopes { params := before } parts)
  rw [mode.writeParts_eq_pieces] at hparams
  cases mode with
  | simple =>
      rw [Piece.foldl_writePiece_simple] at hparams
      simpa [Rendered.write, Rendered.append] using hparams
  | bound placeholder =>
      rw [Piece.foldl_writePiece_bound] at hparams
      have hvalues := List.append_cancel_left hparams
      rw [<- hvalues]
      exact Part.values_allLeaves scopes parts

namespace Site

theorem exists_leaves_fill (site : Site) (outer : Scopes) :
    exists before after, forall part, Part.allLeaves outer (site.fill part) =
      before ++ part.leaves (site.scopes outer) ++ after := by
  induction site generalizing outer with
  | here front back =>
      refine ⟨Part.allLeaves outer front, Part.allLeaves outer back, fun part => ?_⟩
      rw [fill, Part.allLeaves_append, Part.allLeaves, scopes, List.append_assoc]
  | nested front inner back ih =>
      rcases ih outer with ⟨before, after, hinner⟩
      refine ⟨Part.allLeaves outer front ++ before, after ++ Part.allLeaves outer back,
        fun part => ?_⟩
      rw [fill, Part.allLeaves_append, Part.allLeaves, Part.leaves, hinner, scopes]
      simp only [List.append_assoc]
  | frame front aliases unqualified inner back ih =>
      rcases ih (outer.push aliases unqualified) with ⟨before, after, hinner⟩
      refine ⟨Part.allLeaves outer front ++ before, after ++ Part.allLeaves outer back,
        fun part => ?_⟩
      rw [fill, Part.allLeaves_append, Part.allLeaves, Part.leaves, hinner, scopes]
      simp only [List.append_assoc]

/-- What is written before a frame and after it does not depend on its aliases. -/
theorem exists_writeParts_frame (site : Site) (mode : RenderMode) (scopes : Scopes)
    (r : Rendered) (inner : List Part) :
    exists before after : Rendered, forall aliases unqualified,
      mode.writeParts scopes r (site.fill (.frame aliases unqualified inner)) =
        (before.append (Placed.renderings mode before.params
          (Part.allLeaves ((site.scopes scopes).push aliases unqualified) inner))).append
            after := by
  rcases site.exists_leaves_fill scopes with ⟨front, back, hleaves⟩
  let before := r.append (Placed.renderings mode r.params front)
  let added : List Typed :=
    match mode with
    | .simple => []
    | .bound _ => (Part.allValues inner).filter Typed.isBound
  refine ⟨before, Placed.renderings mode ⟨before.params.values ++ added⟩ back, ?_⟩
  intro aliases unqualified
  have hinner : (Placed.renderings mode before.params
      (Part.allLeaves ((site.scopes scopes).push aliases unqualified) inner)).params.values =
        added := Placed.values_renderings mode before.params _ inner
  rw [mode.writeParts_eq_foldl, hleaves, List.foldl_append, List.foldl_append,
    Placed.foldl_writeLeaf, Placed.foldl_writeLeaf, Placed.foldl_writeLeaf, Part.leaves, <- hinner]
  rfl

end Site

/-!
## Neighbouring texts
-/

namespace Part

def IsText (part : Part) : Prop := exists s, part = .text s

def inner? : Part -> Option (List Part)
  | .nested parts => some parts
  | .frame _ _ parts => some parts
  | _ => none

inductive Within : List Part -> List Part -> Prop where
  | here (parts : List Part) : Within parts parts
  | inside {parts inner outer : List Part} {part : Part} (hpart : part ∈ outer)
      (hinner : part.inner? = some inner) (h : Within parts inner) : Within parts outer

def Apart (p q : Part) : Prop := ¬(p.IsText ∧ q.IsText)

/-- No two texts are neighbours, at any depth. -/
def Merged (parts : List Part) : Prop :=
  forall within, Within within parts -> within.IsChain Apart

theorem pushPart_texts (front : List Part) (s t : String) :
    pushPart (.text t) (front ++ [.text s]) = front ++ [.text (s ++ t)] := by
  induction front with
  | nil => rfl
  | cons first rest ih =>
      cases rest with
      | nil => rfl
      | cons next more =>
          rw [List.cons_append, List.cons_append, pushPart, <- List.cons_append, ih]
          rfl

theorem isChain_concat {parts : List Part} {part : Part} (h : parts.IsChain Apart)
    (hlast : forall last, parts.getLast? = some last -> last.Apart part) :
    (parts ++ [part]).IsChain Apart := by
  refine List.isChain_append.mpr ⟨h, List.isChain_singleton part, ?_⟩
  intro last hmem next hnext
  cases hnext
  exact hlast last hmem

theorem isChain_pushPart {parts : List Part} (h : parts.IsChain Apart) (part : Part) :
    (pushPart part parts).IsChain Apart := by
  rcases Fragment.pushPart_cases part parts with hpush | ⟨front, s, t, rfl, rfl, hpush⟩
  · rw [hpush]
    refine isChain_concat h ?_
    -- A text behind a text would have been merged, and so have left the length as it was.
    rintro last hlast ⟨⟨s, rfl⟩, t, rfl⟩
    rcases List.getLast?_eq_some_iff.mp hlast with ⟨front, rfl⟩
    rw [pushPart_texts] at hpush
    simpa using congrArg List.length hpush
  · rw [hpush]
    rcases List.isChain_append.mp h with ⟨hfront, -, hlast⟩
    refine isChain_concat hfront ?_
    rintro last hmem ⟨htext, -⟩
    exact hlast last hmem (.text s) rfl ⟨htext, s, rfl⟩

theorem inner?_of_mem_pushPart {parts inner : List Part} {part part' : Part}
    (hmem : part' ∈ pushPart part parts) (hinner : part'.inner? = some inner) :
    part' ∈ parts ∨ part' = part := by
  rcases Fragment.pushPart_cases part parts with hpush | ⟨front, s, t, rfl, rfl, hpush⟩
  · rw [hpush] at hmem
    simpa using hmem
  · rw [hpush] at hmem
    rcases List.mem_append.mp hmem with hfront | hlast
    · exact Or.inl (List.mem_append_left _ hfront)
    · cases List.mem_singleton.mp hlast
      cases hinner

theorem Merged.push {f : Fragment} {part : Part} (h : Merged f.parts)
    (hpart : forall inner, part.inner? = some inner -> Merged inner) :
    Merged (f.push part).parts := by
  intro within hwithin
  cases hwithin with
  | here => exact isChain_pushPart (h f.parts (.here f.parts)) part
  | inside hmem hinner hwithin =>
      rcases inner?_of_mem_pushPart hmem hinner with hold | rfl
      · exact h within (.inside hold hinner hwithin)
      · exact hpart _ hinner within hwithin

end Part

namespace Fragment

inductive Built : Fragment -> Prop where
  | empty : Built .empty
  | text {f : Fragment} (h : Built f) (s : String) : Built (f.text s)
  | value {f : Fragment} (h : Built f) (v : Typed) : Built (f.value v)
  | column {f : Fragment} (h : Built f) (slot : Slot) (name : String) : Built (f.column slot name)
  | table {f : Fragment} (h : Built f) (slot : Slot) (t : Table) : Built (f.table slot t)
  | nested {f inner : Fragment} (h : Built f) (hinner : Built inner) : Built (f.nested inner)
  | frame {f : Fragment} {inner : Frame} (h : Built f) (hinner : Built inner.query) :
      Built (f.frame inner)
  | joined {f : Fragment} {items : List Fragment} (h : Built f)
      (hitems : forall item, item ∈ items -> Built item) (separator : String) :
      Built (f.joined items separator)
  | push {f : Fragment} {part : Part} (h : Built f)
      (hinner : forall inner, part.inner? = some inner -> Built ⟨inner⟩) : Built (f.push part)

theorem merged_separated {items : List Fragment}
    (hitems : forall item, item ∈ items -> Part.Merged item.parts) (separator : String)
    {f : Fragment} (h : Part.Merged f.parts) :
    Part.Merged (items.foldl (fun f item => (f.text separator).nested item) f).parts := by
  induction items generalizing f with
  | nil => exact h
  | cons item rest ih =>
      have htext : Part.Merged (f.text separator).parts := h.push fun _ => nofun
      have hitem : Part.Merged ((f.text separator).nested item).parts := by
        refine htext.push ?_
        rintro inner ⟨⟩
        exact hitems item (List.mem_cons_self ..)
      exact ih (fun other hmem => hitems other (List.mem_cons_of_mem _ hmem)) hitem

theorem Built.merged {f : Fragment} (h : Built f) : Part.Merged f.parts := by
  induction h with
  | empty =>
      intro within hwithin
      cases hwithin with
      | here => exact List.isChain_nil
      | inside hmem _ _ => cases hmem
  | text _ s ih => exact ih.push fun _ => nofun
  | value _ v ih => exact ih.push fun _ => nofun
  | column _ slot name ih => exact ih.push fun _ => nofun
  | table _ slot t ih => exact ih.push fun _ => nofun
  | nested _ _ ih ihinner =>
      refine ih.push ?_
      rintro inner ⟨⟩
      exact ihinner
  | frame _ _ ih ihinner =>
      refine ih.push ?_
      rintro inner ⟨⟩
      exact ihinner
  | joined _ _ separator ih ihitems =>
      rename_i items _ _
      cases items with
      | nil => exact ih
      | cons item rest =>
          refine merged_separated (fun other hmem => ihitems other (List.mem_cons_of_mem _ hmem))
            separator (ih.push ?_)
          rintro inner ⟨⟩
          exact ihitems item (List.mem_cons_self ..)
  | push _ _ ih ihinner => exact ih.push ihinner

/-- Rendering only sees the leaves.  A rendering is the renderings of the leaves one behind the
other, each under its own frames; parts that are grouped otherwise are rendered alike; what is
written outside a frame does not depend on its aliases; and the builder operations never leave two
texts side by side. -/
theorem rendered_by_leaves (mode : RenderMode) (scopes : Scopes) (r : Rendered) :
    (forall parts, mode.writeParts scopes r parts =
      r.append (Placed.renderings mode r.params (Part.allLeaves scopes parts))) ∧
    (forall p : Placed,
      mode.writePart p.scopes r p.leaf.part = r.append (p.rendering mode r.params)) ∧
    (forall (p : Placed) (before others : Parameters), before.size = others.size ->
      p.rendering mode before = p.rendering mode others) ∧
    (forall f : Fragment, f.renderWith mode = Placed.renderings mode {} f.leaves) ∧
    (forall parts others, Part.Regrouped parts others ->
      mode.writeParts scopes r parts = mode.writeParts scopes r others) ∧
    (forall (f : Fragment) part, Part.Regrouped (f.push part).parts (f.parts ++ [part])) ∧
    (forall f inner : Fragment, Part.Regrouped (f.nested inner).parts (f.parts ++ inner.parts)) ∧
    (forall (f : Fragment) items separator, Part.Regrouped (f.joined items separator).parts
      (f.parts ++ [.text separator].intercalate (items.map Fragment.parts))) ∧
    (forall (site : Site) (inner : List Part), exists before after : Rendered,
      forall aliases unqualified,
        mode.writeParts scopes r (site.fill (.frame aliases unqualified inner)) =
          (before.append (Placed.renderings mode before.params
            (Part.allLeaves ((site.scopes scopes).push aliases unqualified) inner))).append
              after) ∧
    (forall f : Fragment, Built f -> Part.Merged f.parts) := by
  refine ⟨mode.writeParts_eq_renderings scopes r, Placed.writePart_eq_append mode r, ?_, ?_, ?_,
    regrouped_push, regrouped_nested, regrouped_joined, ?_, fun f => Built.merged⟩
  · intro p before others hsize
    exact Placed.rendering_congr mode hsize p
  · intro f
    rw [renderWith, mode.writeParts_eq_renderings, Rendered.empty_append, leaves]
  · intro parts others h
    exact h.writeParts_eq mode scopes r
  · intro site inner
    exact site.exists_writeParts_frame mode scopes r inner

end Fragment

end TypedQuery
