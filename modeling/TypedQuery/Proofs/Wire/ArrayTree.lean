import TypedQuery.Proofs.Wire.ArrayText

/-!
# Elements in levels

The text of an array is the text of a tree: levels between braces, and elements with or without
quotes, in which a backslash may stand before any character.  A text has one tree.
-/

namespace TypedQuery
namespace Wire

/-!
## Characters of an element
-/

/-- A character of an element, with a backslash before it or without. -/
structure Glyph where
  escaped : Bool
  char : Char

namespace Glyph

def text (g : Glyph) : List Char := if g.escaped then ['\\', g.char] else [g.char]

def IsInner (ends : List Char) (g : Glyph) : Prop :=
  g.escaped = false -> g.char ≠ '\\' ∧ g.char ∉ ends

instance (ends : List Char) (g : Glyph) : Decidable (g.IsInner ends) :=
  inferInstanceAs (Decidable (_ -> _))

def written (gs : List Glyph) : List Char := gs.flatMap text

def content (gs : List Glyph) : List Char := gs.map (·.char)

def quoteEnds : List Char := ['"']

def bareEnds : List Char := [',', '\x7d']

theorem isInner_escaped (ends : List Char) (c : Char) : IsInner ends ⟨true, c⟩ := nofun

theorem written_cons (g : Glyph) (gs : List Glyph) : written (g :: gs) = g.text ++ written gs := rfl

theorem text_append_inj {ends : List Char} {g g' : Glyph} (hg : g.IsInner ends)
    (hg' : g'.IsInner ends) {rest rest' : List Char} (h : g.text ++ rest = g'.text ++ rest') :
    g = g' ∧ rest = rest' := by
  rcases g with ⟨_ | _, c⟩ <;> rcases g' with ⟨_ | _, c'⟩
  · injection h with hchar hrest
    exact ⟨congrArg (Glyph.mk false) hchar, hrest⟩
  · injection h with hchar
    exact absurd hchar (hg rfl).1
  · injection h with hchar
    exact absurd hchar.symm (hg' rfl).1
  · injection h with _ htail
    injection htail with hchar hrest
    exact ⟨congrArg (Glyph.mk true) hchar, hrest⟩

theorem text_append_ne {ends : List Char} (hends : '\\' ∉ ends) {g : Glyph} (hg : g.IsInner ends)
    {c : Char} (hc : c ∈ ends) (cs more : List Char) : g.text ++ cs ≠ c :: more := by
  rcases g with ⟨_ | _, d⟩ <;> rintro ⟨⟩
  · exact (hg rfl).2 hc
  · exact hends hc

/-- Glyphs up to one of the characters that end them are there in one way only. -/
theorem written_append_inj {ends : List Char} (hends : '\\' ∉ ends) {gs gs' : List Glyph}
    (hgs : forall g, g ∈ gs -> g.IsInner ends) (hgs' : forall g, g ∈ gs' -> g.IsInner ends)
    {c c' : Char} (hc : c ∈ ends) (hc' : c' ∈ ends) {rest rest' : List Char}
    (h : written gs ++ c :: rest = written gs' ++ c' :: rest') :
    gs = gs' ∧ c :: rest = c' :: rest' := by
  induction gs generalizing gs' with
  | nil =>
      cases gs' with
      | nil => exact ⟨rfl, h⟩
      | cons g' more' =>
          rw [written_cons, List.append_assoc] at h
          exact absurd h.symm (text_append_ne hends (hgs' g' List.mem_cons_self) hc _ _)
  | cons g more ih =>
      cases gs' with
      | nil =>
          rw [written_cons, List.append_assoc] at h
          exact absurd h (text_append_ne hends (hgs g List.mem_cons_self) hc' _ _)
      | cons g' more' =>
          rw [written_cons, written_cons, List.append_assoc, List.append_assoc] at h
          rcases text_append_inj (hgs g List.mem_cons_self) (hgs' g' List.mem_cons_self) h
            with ⟨rfl, hmore⟩
          rcases ih (fun g hg => hgs g (List.mem_cons_of_mem _ hg))
            (fun g hg => hgs' g (List.mem_cons_of_mem _ hg)) hmore with ⟨rfl, hrest⟩
          exact ⟨rfl, hrest⟩

end Glyph

/-!
## Elements and levels
-/

inductive Leaf where
  | bare (glyphs : List Glyph)
  | quoted (glyphs : List Glyph)

namespace Leaf

open Glyph

def text : Leaf -> List Char
  | bare gs => written gs
  | quoted gs => '"' :: (written gs ++ ['"'])

/-- What ends an element stands in it behind a backslash only, and an element without quotes does
not start like a level or like one with quotes. -/
def IsValid : Leaf -> Prop
  | bare gs => (forall g, g ∈ gs -> g.IsInner bareEnds) ∧
      forall g, g ∈ gs.head? -> g.escaped = false -> g.char ≠ '\x7b' ∧ g.char ≠ '"'
  | quoted gs => forall g, g ∈ gs -> g.IsInner quoteEnds

instance : (l : Leaf) -> Decidable l.IsValid
  | bare _ => inferInstanceAs (Decidable (_ ∧ _))
  | quoted gs => inferInstanceAs (Decidable (forall g, g ∈ gs -> g.IsInner quoteEnds))

end Leaf

inductive ArrayTree where
  | leaf (l : Leaf)
  | level (nodes : List ArrayTree)

namespace ArrayTree

mutual

def written (write : Leaf -> List Char) : ArrayTree -> List Char
  | leaf l => write l
  | level [] => ['\x7b', '\x7d']
  | level (first :: more) => '\x7b' :: (first.written write ++ writtenBehind write more)

def writtenBehind (write : Leaf -> List Char) : List ArrayTree -> List Char
  | [] => ['\x7d']
  | next :: more => ',' :: (next.written write ++ writtenBehind write more)

end

abbrev text (t : ArrayTree) : List Char := t.written Leaf.text

abbrev behind (nodes : List ArrayTree) : List Char := writtenBehind Leaf.text nodes

theorem text_cons (first : ArrayTree) (more : List ArrayTree) :
    (level (first :: more)).text = '\x7b' :: (first.text ++ behind more) := rfl

theorem exists_text_level (nodes : List ArrayTree) :
    exists tail, (level nodes).text = '\x7b' :: tail := by
  cases nodes with
  | nil => exact ⟨_, rfl⟩
  | cons first more => exact ⟨_, rfl⟩

theorem behind_cons (next : ArrayTree) (more : List ArrayTree) :
    behind (next :: more) = ',' :: (next.text ++ behind more) := rfl

/-- The elements are valid, and no level is one empty element: its text is that of a level without
items. -/
inductive IsValid : ArrayTree -> Prop
  | leaf {l : Leaf} (h : l.IsValid) : IsValid (.leaf l)
  | level {nodes : List ArrayTree} (hne : nodes ≠ [.leaf (.bare [])])
      (h : forall n, n ∈ nodes -> IsValid n) : IsValid (.level nodes)

theorem isValid_of_mem {nodes : List ArrayTree} (h : (ArrayTree.level nodes).IsValid)
    {n : ArrayTree} (hn : n ∈ nodes) : n.IsValid := by
  cases h with
  | level hne hnodes => exact hnodes n hn

instance : (nodes : List ArrayTree) -> Decidable (nodes = [leaf (.bare [])])
  | [leaf (.bare [])] => isTrue rfl
  | [] | [leaf (.bare (_ :: _))] | [leaf (.quoted _)] | [level _] | _ :: _ :: _ => isFalse nofun

mutual

def decideValid : (t : ArrayTree) -> Decidable t.IsValid
  | leaf l => decidable_of_iff l.IsValid ⟨.leaf, fun | .leaf h => h⟩
  | level nodes =>
      have := decideAllValid nodes
      decidable_of_iff (nodes ≠ [leaf (.bare [])] ∧ forall n, n ∈ nodes -> n.IsValid)
        ⟨fun h => .level h.1 h.2, fun | .level hne h => ⟨hne, h⟩⟩

def decideAllValid : (nodes : List ArrayTree) -> Decidable (forall n, n ∈ nodes -> n.IsValid)
  | [] => isTrue (by simp)
  | first :: more =>
      have := first.decideValid
      have := decideAllValid more
      decidable_of_iff _ List.forall_mem_cons.symm

end

instance : DecidablePred IsValid := decideValid

end ArrayTree

/-!
## What stands at the front
-/

namespace ArrayText

open Glyph ArrayTree

theorem Closes.ne_nil {rest : List Char} (h : Closes rest) : rest ≠ [] := by
  rcases h with ⟨c, more, rfl, -⟩
  exact List.cons_ne_nil c more

theorem closes_behind (nodes : List ArrayTree) (rest : List Char) :
    Closes (behind nodes ++ rest) := by
  cases nodes with
  | nil => exact ⟨'\x7d', rest, rfl, .inr rfl⟩
  | cons n more => exact ⟨',', _, rfl, .inl rfl⟩

theorem first_ne {gs : List Glyph} (hgs : (Leaf.bare gs).IsValid) {rest : List Char}
    (hrest : Closes rest) {c : Char} {more : List Char} (h : written gs ++ rest = c :: more) :
    c ≠ '\x7b' ∧ c ≠ '"' := by
  cases gs with
  | nil =>
      rcases hrest with ⟨d, tail, rfl, rfl | rfl⟩ <;> cases h <;> decide
  | cons g tail =>
      rcases g with ⟨_ | _, d⟩
      · cases h
        exact hgs.2 ⟨false, d⟩ rfl rfl
      · cases h
        decide

theorem starts_with_brace {n : ArrayTree} (hn : n.IsValid) {nodes : List ArrayTree}
    {rest more : List Char} (h : n.text ++ (behind nodes ++ rest) = '\x7d' :: more) :
    n = .leaf (.bare []) ∧ nodes = [] := by
  cases hn with
  | @leaf l hl =>
      cases l with
      | bare gs =>
          cases gs with
          | nil =>
              cases nodes with
              | nil => exact ⟨rfl, rfl⟩
              | cons next more => cases h
          | cons g tail =>
              have hg := hl.1 g List.mem_cons_self
              rcases g with ⟨_ | _, d⟩
              · cases h
                exact absurd (hg rfl).2 (by decide)
              · cases h
      | quoted gs => cases h
  | @level nodes' hne h' =>
      cases nodes' with
      | nil => cases h
      | cons first more => cases h

end ArrayText

/-!
## Texts of trees
-/

theorem Leaf.text_append_inj {l l' : Leaf} (hl : l.IsValid) (hl' : l'.IsValid)
    {rest rest' : List Char} (hrest : ArrayText.Closes rest) (hrest' : ArrayText.Closes rest')
    (h : l.text ++ rest = l'.text ++ rest') : l = l' ∧ rest = rest' := by
  cases l with
  | bare gs =>
      cases l' with
      | bare gs' =>
          rcases hrest with ⟨c, more, rfl, hc⟩
          rcases hrest' with ⟨c', more', rfl, hc'⟩
          have hend : c ∈ Glyph.bareEnds := by simpa [Glyph.bareEnds] using hc
          have hend' : c' ∈ Glyph.bareEnds := by simpa [Glyph.bareEnds] using hc'
          rcases Glyph.written_append_inj (by decide) hl.1 hl'.1 hend hend' h with ⟨rfl, hrest⟩
          exact ⟨rfl, hrest⟩
      | quoted gs' => exact absurd rfl (ArrayText.first_ne hl hrest h).2
  | quoted gs =>
      cases l' with
      | bare gs' => exact absurd rfl (ArrayText.first_ne hl' hrest' h.symm).2
      | quoted gs' =>
          have hquote : '"' ∈ Glyph.quoteEnds := List.mem_singleton_self _
          injection h with _ hinner
          rw [List.append_eq, List.append_eq, List.append_assoc, List.append_assoc] at hinner
          rcases Glyph.written_append_inj (by decide) hl hl' hquote hquote hinner
            with ⟨rfl, hrest⟩
          injection hrest with _ hrest
          exact ⟨rfl, hrest⟩

namespace ArrayTree

/-- Nothing but the tree itself has its text, whatever other nodes or levels are behind it. -/
def IsReadBack (t : ArrayTree) : Prop :=
  forall {t' : ArrayTree}, t'.IsValid -> forall {rest rest' : List Char}, ArrayText.Closes rest ->
    ArrayText.Closes rest' -> t.text ++ rest = t'.text ++ rest' -> t = t' ∧ rest = rest'

theorem behind_append_inj {nodes nodes' : List ArrayTree}
    (hnodes : forall n, n ∈ nodes -> n.IsReadBack) (hnodes' : forall n, n ∈ nodes' -> n.IsValid)
    {rest rest' : List Char} (h : behind nodes ++ rest = behind nodes' ++ rest') :
    nodes = nodes' ∧ rest = rest' := by
  induction nodes generalizing nodes' with
  | nil =>
      cases nodes' with
      | nil =>
          injection h with _ hrest
          exact ⟨rfl, hrest⟩
      | cons n' more' => cases h
  | cons n more ih =>
      cases nodes' with
      | nil => cases h
      | cons n' more' =>
          injection h with _ hitems
          rw [List.append_eq, List.append_eq, List.append_assoc, List.append_assoc] at hitems
          rcases hnodes n List.mem_cons_self (hnodes' n' List.mem_cons_self)
            (ArrayText.closes_behind more rest) (ArrayText.closes_behind more' rest') hitems
            with ⟨rfl, hmore⟩
          rcases ih (fun n hn => hnodes n (List.mem_cons_of_mem _ hn))
            (fun n hn => hnodes' n (List.mem_cons_of_mem _ hn)) hmore with ⟨rfl, hrest⟩
          exact ⟨rfl, hrest⟩

theorem level_append_inj {nodes nodes' : List ArrayTree} (hvalid : (level nodes).IsValid)
    (hvalid' : (level nodes').IsValid) (hnodes : forall n, n ∈ nodes -> n.IsReadBack)
    {rest rest' : List Char} (h : (level nodes).text ++ rest = (level nodes').text ++ rest') :
    nodes = nodes' ∧ rest = rest' := by
  have hempty : forall {first : ArrayTree} {more rest rest'},
      (level (first :: more)).IsValid ->
        first.text ++ (behind more ++ rest) ≠ '\x7d' :: rest' := by
    intro first more rest rest' hlevel heq
    rcases ArrayText.starts_with_brace (isValid_of_mem hlevel List.mem_cons_self) heq
      with ⟨rfl, rfl⟩
    cases hlevel with
    | level hne => exact hne rfl
  cases nodes with
  | nil =>
      cases nodes' with
      | nil =>
          injection h with _ htail
          injection htail with _ hrest
          exact ⟨rfl, hrest⟩
      | cons first' more' =>
          injection h with _ htail
          rw [List.append_eq, List.append_eq, List.append_assoc] at htail
          exact absurd htail.symm (hempty hvalid')
  | cons first more =>
      cases nodes' with
      | nil =>
          injection h with _ htail
          rw [List.append_eq, List.append_eq, List.append_assoc] at htail
          exact absurd htail (hempty hvalid)
      | cons first' more' =>
          have hbehind : behind (first :: more) ++ rest = behind (first' :: more') ++ rest' := by
            injection h with _ htail
            exact congrArg (',' :: ·) htail
          exact behind_append_inj hnodes (fun n hn => isValid_of_mem hvalid' hn) hbehind

theorem leaf_append_ne {l : Leaf} (hl : l.IsValid) {rest : List Char}
    (hrest : ArrayText.Closes rest) (nodes : List ArrayTree) (rest' : List Char) :
    l.text ++ rest ≠ (level nodes).text ++ rest' := by
  intro h
  rcases exists_text_level nodes with ⟨tail, htext⟩
  rw [htext] at h
  cases l with
  | bare gs => exact (ArrayText.first_ne hl hrest h).1 rfl
  | quoted gs => cases h

theorem isReadBack {t : ArrayTree} (ht : t.IsValid) : t.IsReadBack := by
  induction ht with
  | @leaf l hl =>
      rintro _ (@⟨l', hl'⟩ | @⟨nodes', hne', hnodes'⟩) rest rest' hrest hrest' h
      · rcases Leaf.text_append_inj hl hl' hrest hrest' h with ⟨rfl, hrest⟩
        exact ⟨rfl, hrest⟩
      · exact absurd h (leaf_append_ne hl hrest nodes' rest')
  | @level nodes hne hnodes ih =>
      rintro _ (@⟨l', hl'⟩ | @⟨nodes', hne', hnodes'⟩) rest rest' hrest hrest' h
      · exact absurd h.symm (leaf_append_ne hl' hrest' nodes rest)
      · rcases level_append_inj (.level hne hnodes) (.level hne' hnodes') ih h with ⟨rfl, hrest⟩
        exact ⟨rfl, hrest⟩

end ArrayTree

end Wire
end TypedQuery
