import TypedQuery.Proofs.Fragment.Leaf

/-!
# Anchors of a fragment

Texts and values are written alike wherever they stand.  What depends on the frames around a
fragment is its anchors: its columns, its tables and the frames inside it.  Every builder operation
appends to the list of anchors, and fragments with anchors that are written alike are written
alike.
-/

namespace TypedQuery

mutual

/-- The columns, tables and frames of a part in order.  Nested parts are opened; a frame counts as
a whole. -/
def Part.anchors : Part -> List Part
  | .text _ => []
  | .value _ => []
  | .column slot name => [.column slot name]
  | .table slot t => [.table slot t]
  | .nested parts => Part.allAnchors parts
  | .frame aliases unqualified parts => [.frame aliases unqualified parts]

def Part.allAnchors : List Part -> List Part
  | [] => []
  | part :: rest => part.anchors ++ Part.allAnchors rest

end

def Fragment.anchors (f : Fragment) : List Part := Part.allAnchors f.parts

/-!
## Builder operations
-/

def Frame.part (frame : Frame) : Part := .frame frame.aliases frame.unqualified frame.query.parts

namespace Fragment

/-- A part that is pushed stands at the end, or is a text that joins the text at the end. -/
theorem pushPart_cases (part : Part) (parts : List Part) :
    pushPart part parts = parts ++ [part] ∨
      exists before s t, parts = before ++ [.text s] ∧ part = .text t ∧
        pushPart part parts = before ++ [.text (s ++ t)] := by
  induction parts with
  | nil => exact Or.inl rfl
  | cons first rest ih =>
      cases rest with
      | nil =>
          unfold pushPart
          split
          · rename_i s t
            exact Or.inr ⟨[], s, t, rfl, rfl, rfl⟩
          · exact Or.inl rfl
      | cons next more =>
          rw [pushPart]
          rcases ih with hpush | ⟨before, s, t, hparts, hpart, hpush⟩
          · left
            rw [hpush]
            rfl
          · right
            exact ⟨first :: before, s, t, by rw [hparts]; rfl, hpart, by rw [hpush]; rfl⟩

end Fragment

namespace Part

theorem allAnchors_append (xs ys : List Part) :
    allAnchors (xs ++ ys) = allAnchors xs ++ allAnchors ys := by
  induction xs with
  | nil => rfl
  | cons part rest ih => rw [List.cons_append, allAnchors, ih, allAnchors, List.append_assoc]

theorem allAnchors_pushPart (part : Part) (parts : List Part) :
    allAnchors (pushPart part parts) = allAnchors parts ++ part.anchors := by
  rcases Fragment.pushPart_cases part parts with hpush | ⟨before, s, t, rfl, rfl, hpush⟩
  · rw [hpush, allAnchors_append, allAnchors, allAnchors, List.append_nil]
  · rw [hpush, allAnchors_append, allAnchors_append]
    simp only [allAnchors, anchors, List.append_nil]

end Part

namespace Fragment

variable (f : Fragment)

@[simp] theorem anchors_empty : Fragment.empty.anchors = [] := rfl

@[simp] theorem anchors_text (s : String) : (f.text s).anchors = f.anchors := by
  have h := Part.allAnchors_pushPart (.text s) f.parts
  rwa [Part.anchors, List.append_nil] at h

@[simp] theorem anchors_value (v : Typed) : (f.value v).anchors = f.anchors := by
  have h := Part.allAnchors_pushPart (.value v) f.parts
  rwa [Part.anchors, List.append_nil] at h

@[simp] theorem anchors_column (slot : Slot) (name : String) :
    (f.column slot name).anchors = f.anchors ++ [.column slot name] :=
  Part.allAnchors_pushPart (.column slot name) f.parts

@[simp] theorem anchors_table (slot : Slot) (t : Table) :
    (f.table slot t).anchors = f.anchors ++ [.table slot t] :=
  Part.allAnchors_pushPart (.table slot t) f.parts

@[simp] theorem anchors_nested (inner : Fragment) :
    (f.nested inner).anchors = f.anchors ++ inner.anchors :=
  Part.allAnchors_pushPart (.nested inner.parts) f.parts

@[simp] theorem anchors_frame (frame : Frame) :
    (f.frame frame).anchors = f.anchors ++ [frame.part] :=
  Part.allAnchors_pushPart frame.part f.parts

@[simp] theorem anchors_joined (items : List Fragment) (separator : String) :
    (f.joined items separator).anchors = f.anchors ++ items.flatMap Fragment.anchors := by
  have hrest : forall (rest : List Fragment) (g : Fragment),
      (rest.foldl (fun f item => (f.text separator).nested item) g).anchors =
        g.anchors ++ rest.flatMap Fragment.anchors := by
    intro rest
    induction rest with
    | nil => simp
    | cons item more ih =>
        intro g
        rw [List.foldl_cons, ih, anchors_nested, anchors_text, List.flatMap_cons, List.append_assoc]
  cases items with
  | nil => simp [joined]
  | cons item rest =>
      rw [joined, hrest, anchors_nested, List.flatMap_cons, List.append_assoc]

end Fragment

/-!
## Leaves

The leaves that are columns or tables are those of the columns, tables and frames of a fragment.
-/

section

variable {β : Type} {g : Placed -> Option β}

mutual

theorem Part.filterMap_leaves (htext : forall scopes s, g ⟨scopes, .text s⟩ = none)
    (hvalue : forall scopes v, g ⟨scopes, .value v⟩ = none) (scopes : Scopes) (part : Part) :
    (part.leaves scopes).filterMap g =
      part.anchors.flatMap fun p => (p.leaves scopes).filterMap g := by
  cases part with
  | text s => simp [leaves, anchors, htext]
  | value v => simp [leaves, anchors, hvalue]
  | column slot name => simp [anchors]
  | table slot t => simp [anchors]
  | nested parts =>
      rw [leaves, anchors]
      exact Part.filterMap_allLeaves htext hvalue scopes parts
  | frame aliases unqualified parts => simp [anchors]

theorem Part.filterMap_allLeaves (htext : forall scopes s, g ⟨scopes, .text s⟩ = none)
    (hvalue : forall scopes v, g ⟨scopes, .value v⟩ = none) (scopes : Scopes)
    (parts : List Part) :
    (Part.allLeaves scopes parts).filterMap g =
      (Part.allAnchors parts).flatMap fun p => (p.leaves scopes).filterMap g := by
  cases parts with
  | nil => rfl
  | cons part rest =>
      rw [Part.allLeaves, Part.allAnchors, List.filterMap_append, List.flatMap_append,
        Part.filterMap_leaves htext hvalue scopes part,
        Part.filterMap_allLeaves htext hvalue scopes rest]

end

end

def Placed.named? (p : Placed) : Option Placed :=
  match p.leaf with
  | .text _ => none
  | .value _ => none
  | _ => some p

theorem Part.exists_anchor {scopes : Scopes} {parts : List Part} {p : Placed}
    (h : p ∈ allLeaves scopes parts) (hnamed : p.named? = some p) :
    exists anchor, anchor ∈ allAnchors parts ∧ p ∈ anchor.leaves scopes := by
  have hmem : p ∈ (allLeaves scopes parts).filterMap Placed.named? :=
    List.mem_filterMap.mpr ⟨p, h, hnamed⟩
  rw [Part.filterMap_allLeaves (fun _ _ => rfl) (fun _ _ => rfl)] at hmem
  rcases List.mem_flatMap.mp hmem with ⟨anchor, hanchor, hp⟩
  rcases List.mem_filterMap.mp hp with ⟨⟨frames, leaf⟩, hq, heq⟩
  refine ⟨anchor, hanchor, ?_⟩
  cases leaf with
  | text s => cases heq
  | value v => cases heq
  | column slot name =>
      cases heq
      exact hq
  | table slot t =>
      cases heq
      exact hq

def Placed.column? (p : Placed) : Option (Slot × String) :=
  match p.leaf with
  | .column slot name => some (slot, name)
  | _ => none

/-- All columns of a fragment, those inside its frames included. -/
def Fragment.columns (f : Fragment) : List (Slot × String) := f.leaves.filterMap Placed.column?

theorem Fragment.columns_eq_flatMap (f : Fragment) :
    f.columns = f.anchors.flatMap fun part => (part.leaves {}).filterMap Placed.column? :=
  Part.filterMap_allLeaves (fun _ _ => rfl) (fun _ _ => rfl) {} f.parts

theorem Fragment.columns_perm {f : Fragment} {refs : List (Slot × String)}
    (h : f.anchors.Perm (refs.map fun ref => .column ref.1 ref.2)) : f.columns.Perm refs := by
  have hcolumns := h.flatMap_right fun part => (part.leaves {}).filterMap Placed.column?
  rw [<- f.columns_eq_flatMap, List.flatMap_map] at hcolumns
  simpa [Part.leaves, Placed.column?] using hcolumns

/-!
## Pieces
-/

theorem Part.pieces_singleton (scopes : Scopes) (part : Part) :
    pieces scopes [part] = (part.leaves scopes).map Placed.piece := by
  rw [pieces, allLeaves, allLeaves, List.append_nil]

theorem Part.pieces_append (scopes : Scopes) (xs ys : List Part) :
    pieces scopes (xs ++ ys) = pieces scopes xs ++ pieces scopes ys := by
  induction xs with
  | nil => rfl
  | cons part rest ih =>
      simp only [pieces] at ih ⊢
      rw [List.cons_append, allLeaves, allLeaves, List.map_append, ih, List.map_append,
        List.append_assoc]

mutual

theorem Part.pieces_congr_part {scopes scopes' : Scopes} {part : Part}
    (h : forall p, p ∈ part.anchors -> Part.pieces scopes [p] = Part.pieces scopes' [p]) :
    (part.leaves scopes).map Placed.piece = (part.leaves scopes').map Placed.piece := by
  have hself : part.anchors = [part] ->
      (part.leaves scopes).map Placed.piece = (part.leaves scopes').map Placed.piece := by
    intro hpart
    rw [<- pieces_singleton, <- pieces_singleton]
    exact h part (hpart ▸ List.mem_singleton_self part)
  cases part with
  | text s => rfl
  | value v => rfl
  | column slot name => exact hself rfl
  | table slot t => exact hself rfl
  | nested parts => exact Part.pieces_congr h
  | frame aliases unqualified parts => exact hself rfl

/-- Parts are written alike in two places where their columns, tables and frames are. -/
theorem Part.pieces_congr {scopes scopes' : Scopes} {parts : List Part}
    (h : forall p, p ∈ Part.allAnchors parts -> Part.pieces scopes [p] = Part.pieces scopes' [p]) :
    Part.pieces scopes parts = Part.pieces scopes' parts := by
  cases parts with
  | nil => rfl
  | cons part rest =>
      have hfirst := @Part.pieces_congr_part scopes scopes' part
        fun p hp => h p (List.mem_append_left _ hp)
      have hrest := @Part.pieces_congr scopes scopes' rest
        fun p hp => h p (List.mem_append_right _ hp)
      simp only [pieces, allLeaves, List.map_append] at hrest ⊢
      rw [hfirst, hrest]

end

end TypedQuery
