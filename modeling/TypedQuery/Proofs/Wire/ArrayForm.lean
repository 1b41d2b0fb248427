import Mathlib.Data.List.TakeWhile
import TypedQuery.Proofs.Wire.ArrayTree

/-!
# Texts that are read as arrays

A text is read as an array exactly if it is the text of a tree whose elements can be read, maybe
behind bounds.  The value is that of the tree, and nothing is asked of the tree itself.
-/

namespace TypedQuery
namespace Wire

/-!
## Values
-/

namespace Leaf

open Glyph

def value (element : Oid) : Leaf -> Result Value
  | bare gs => ArrayText.bareElement element (content gs)
  | quoted gs => textElement element (String.ofList (content gs))

end Leaf

namespace ArrayTree

mutual

def value (element : Oid) : ArrayTree -> Result Value
  | leaf l => l.value element
  | level nodes => do return .array (<- values element nodes)

def values (element : Oid) : List ArrayTree -> Result (List Value)
  | [] => .ok []
  | first :: more => do
      let value <- first.value element
      let values <- values element more
      return value :: values

end

end ArrayTree

/-!
## Elements
-/

namespace ArrayText

open Glyph ArrayTree

theorem quoted_glyphs {gs : List Glyph} (hgs : forall g, g ∈ gs -> g.IsInner quoteEnds)
    (rest : List Char) :
    quoted (written gs ++ '"' :: rest) = some (content gs, rest) := by
  induction gs with
  | nil => rfl
  | cons g more ih =>
      have hmore := ih fun g hg => hgs g (List.mem_cons_of_mem _ hg)
      rcases g with ⟨escaped, c⟩
      cases escaped with
      | true =>
          change quoted ('\\' :: c :: (written more ++ '"' :: rest)) = _
          rw [quoted, hmore]
          rfl
      | false =>
          rcases hgs ⟨false, c⟩ List.mem_cons_self rfl with ⟨hslash, hquote⟩
          change quoted (c :: (written more ++ '"' :: rest)) = _
          rw [quoted_cons (by simpa [quoteEnds] using hquote) hslash, hmore]
          rfl

theorem ne_slash {c : Char} {tail : List Char} (hlast : c = '\\' -> tail = [] -> False)
    (hescape : forall d more, c = '\\' -> tail = d :: more -> False) : c ≠ '\\' := by
  intro heq
  cases tail with
  | nil => exact hlast heq rfl
  | cons d more => exact hescape d more heq rfl

theorem exists_glyphs_of_quoted {cs text rest : List Char} (h : quoted cs = some (text, rest)) :
    exists gs : List Glyph, (forall g, g ∈ gs -> g.IsInner quoteEnds) ∧
      cs = written gs ++ '"' :: rest ∧ content gs = text := by
  fun_induction quoted cs generalizing text with
  | case1 => cases h
  | case2 tail =>
      cases h
      exact ⟨[], by simp, rfl, rfl⟩
  | case3 => cases h
  | case4 c tail ih =>
      rcases Option.map_eq_some_iff.mp h with ⟨⟨more, rest'⟩, hmore, heq⟩
      cases heq
      rcases ih hmore with ⟨gs, hgs, rfl, rfl⟩
      exact ⟨⟨true, c⟩ :: gs, List.forall_mem_cons.mpr ⟨isInner_escaped _ c, hgs⟩, rfl, rfl⟩
  | case5 c tail hquote hlast hescape ih =>
      rcases Option.map_eq_some_iff.mp h with ⟨⟨more, rest'⟩, hmore, heq⟩
      cases heq
      rcases ih hmore with ⟨gs, hgs, rfl, rfl⟩
      have hc : IsInner quoteEnds ⟨false, c⟩ := fun _ =>
        ⟨ne_slash hlast hescape, by simpa [quoteEnds] using hquote⟩
      exact ⟨⟨false, c⟩ :: gs, List.forall_mem_cons.mpr ⟨hc, hgs⟩, rfl, rfl⟩

theorem bare_cons_of_isInner {c : Char} (hc : IsInner bareEnds ⟨false, c⟩) (rest : List Char) :
    bare (c :: rest) = (c :: (bare rest).1, (bare rest).2) := by
  rcases hc rfl with ⟨hslash, hends⟩
  simp only [bareEnds, List.mem_cons, List.not_mem_nil, or_false, not_or] at hends hslash
  rw [bare.eq_def]
  split <;> simp_all

theorem bare_glyphs {gs : List Glyph} (hgs : forall g, g ∈ gs -> g.IsInner bareEnds)
    {rest : List Char} (hrest : Closes rest) : bare (written gs ++ rest) = (content gs, rest) := by
  induction gs with
  | nil => exact bare_of_closes hrest
  | cons g more ih =>
      have hmore := ih fun g hg => hgs g (List.mem_cons_of_mem _ hg)
      rcases g with ⟨escaped, c⟩
      cases escaped with
      | true =>
          change bare ('\\' :: c :: (written more ++ rest)) = _
          rw [bare, hmore]
          rfl
      | false =>
          change bare (c :: (written more ++ rest)) = _
          rw [bare_cons_of_isInner (hgs ⟨false, c⟩ List.mem_cons_self), hmore]
          rfl

theorem exists_glyphs_of_bare {cs text rest : List Char} (h : bare cs = (text, rest))
    (hrest : rest ≠ []) :
    exists gs : List Glyph, (forall g, g ∈ gs -> g.IsInner bareEnds) ∧ Closes rest ∧
      cs = written gs ++ rest ∧ content gs = text := by
  fun_induction bare cs generalizing text with
  | case1 =>
      cases h
      exact absurd rfl hrest
  | case2 =>
      cases h
      exact absurd rfl hrest
  | case3 c tail more rest' hmore ih =>
      cases h
      rcases ih hmore with ⟨gs, hgs, hcloses, rfl, rfl⟩
      exact ⟨⟨true, c⟩ :: gs, List.forall_mem_cons.mpr ⟨isInner_escaped _ c, hgs⟩, hcloses, rfl,
        rfl⟩
  | case4 c tail hlast hescape hend =>
      cases h
      exact ⟨[], by simp, ⟨c, tail, rfl, hend⟩, rfl, rfl⟩
  | case5 c tail hlast hescape hend more rest' hmore ih =>
      cases h
      rcases ih hmore with ⟨gs, hgs, hcloses, rfl, rfl⟩
      have hc : IsInner bareEnds ⟨false, c⟩ := fun _ =>
        ⟨ne_slash hlast hescape, by simpa [bareEnds] using hend⟩
      exact ⟨⟨false, c⟩ :: gs, List.forall_mem_cons.mpr ⟨hc, hgs⟩, hcloses, rfl, rfl⟩

/-!
## Levels

Every character takes at most three units of fuel, and an empty element takes one more.
-/

theorem item_of_ne {element : Oid} (fuel : Nat) {cs : List Char}
    (hcs : forall c more, cs = c :: more -> c ≠ '\x7b' ∧ c ≠ '"') :
    item element (fuel + 1) cs = do
      return (<- bareElement element (bare cs).1, (bare cs).2) := by
  rw [item.eq_def]
  dsimp only
  split
  · exact absurd rfl (hcs _ _ rfl).1
  · exact absurd rfl (hcs _ _ rfl).2
  · rfl

theorem item_leaf (element : Oid) {l : Leaf} (hl : l.IsValid) (fuel : Nat) {rest : List Char}
    (hrest : Closes rest) :
    item element (fuel + 1) (l.text ++ rest) = do return (<- l.value element, rest) := by
  cases l with
  | bare gs =>
      rw [Leaf.text, item_of_ne fuel fun c more h => first_ne hl hrest h, bare_glyphs hl.1 hrest]
      rfl
  | quoted gs =>
      rw [Leaf.text, List.cons_append, List.append_assoc, List.singleton_append, item,
        quoted_glyphs hl]
      rfl

theorem items_nodes {element : Oid} {first : ArrayTree} {more : List ArrayTree}
    (hitem : forall n, n ∈ first :: more -> forall fuel rest, 3 * n.text.length < fuel ->
      Closes rest -> item element fuel (n.text ++ rest) = do return (<- n.value element, rest))
    {fuel : Nat} (hfuel : 3 * (first.text ++ behind more).length <= fuel + 1) (rest : List Char) :
    items element fuel (first.text ++ behind more ++ rest) = do
      return (<- values element (first :: more), rest) := by
  induction more generalizing first fuel with
  | nil =>
      rw [List.length_append, show (behind []).length = 1 from rfl] at hfuel
      cases fuel with
      | zero => omega
      | succ fuel =>
          have hfirst := hitem first List.mem_cons_self fuel (behind [] ++ rest) (by omega)
            (closes_behind [] rest)
          rw [List.append_assoc, items, hfirst, values]
          cases first.value element with
          | error e => rfl
          | ok v => rfl
  | cons next more ih =>
      rw [behind_cons, List.length_append, List.length_cons] at hfuel
      cases fuel with
      | zero => omega
      | succ fuel =>
          have hfirst := hitem first List.mem_cons_self fuel (behind (next :: more) ++ rest)
            (by omega) (closes_behind (next :: more) rest)
          have hmore : items element fuel (next.text ++ behind more ++ rest) = do
              return (<- values element (next :: more), rest) :=
            ih (fun n hn => hitem n (List.mem_cons_of_mem _ hn)) (by omega)
          rw [List.append_assoc, items, hfirst, values]
          cases first.value element with
          | error e => rfl
          | ok v =>
              change (items element fuel (next.text ++ behind more ++ rest) >>= _) = _
              rw [hmore]
              cases values element (next :: more) with
              | error e => rfl
              | ok vs => rfl

theorem level_nodes {element : Oid} {nodes : List ArrayTree}
    (hnodes : (ArrayTree.level nodes).IsValid)
    (hitem : forall n, n ∈ nodes -> forall fuel rest, 3 * n.text.length < fuel ->
      Closes rest -> item element fuel (n.text ++ rest) = do return (<- n.value element, rest))
    {fuel : Nat} (hfuel : 3 * (ArrayTree.level nodes).text.length <= fuel + 3) (rest : List Char) :
    level element fuel ((ArrayTree.level nodes).text ++ rest) = do
      return (<- values element nodes, rest) := by
  cases nodes with
  | nil =>
      cases fuel with
      | zero => exact absurd hfuel (by decide)
      | succ fuel => rfl
  | cons first more =>
      rw [text_cons, List.length_cons] at hfuel
      cases hnodes with
      | level hne hnodes =>
          cases fuel with
          | zero =>
              have hbehind := List.length_pos_of_ne_nil (closes_behind more []).ne_nil
              rw [List.append_nil] at hbehind
              rw [List.length_append] at hfuel
              omega
          | succ fuel =>
              have hitems : items element fuel (first.text ++ behind more ++ rest) = do
                  return (<- values element (first :: more), rest) :=
                items_nodes hitem (by omega) rest
              rw [List.append_assoc] at hitems
              rw [text_cons, List.cons_append, List.append_assoc, <- hitems]
              cases hfirst : first.text ++ (behind more ++ rest) with
              | nil =>
                  rw [List.append_eq_nil_iff] at hfirst
                  exact absurd hfirst.2 (closes_behind more rest).ne_nil
              | cons c tail =>
                  refine level_opened ?_ fuel tail
                  rintro rfl
                  rcases starts_with_brace (hnodes first List.mem_cons_self) hfirst
                    with ⟨rfl, rfl⟩
                  exact hne rfl

theorem item_tree (element : Oid) {t : ArrayTree} (ht : t.IsValid) (fuel : Nat)
    (rest : List Char) (hfuel : 3 * t.text.length < fuel) (hrest : Closes rest) :
    item element fuel (t.text ++ rest) = do return (<- t.value element, rest) := by
  induction ht generalizing fuel rest with
  | leaf hl =>
      cases fuel with
      | zero => omega
      | succ fuel => exact item_leaf element hl fuel hrest
  | @level nodes hne hnodes ih =>
      cases fuel with
      | zero => omega
      | succ fuel =>
          have hlevel : level element fuel ((ArrayTree.level nodes).text ++ rest) = do
              return (<- values element nodes, rest) :=
            level_nodes (.level hne hnodes) ih (by omega) rest
          rcases exists_text_level nodes with ⟨tail, htext⟩
          rw [htext, List.cons_append] at hlevel ⊢
          rw [item, hlevel, value]
          cases values element nodes with
          | error e => rfl
          | ok vs => rfl

/-!
## What is read
-/

structure TakesTrees (element : Oid) (fuel : Nat) : Prop where
  level : forall {cs vs rest}, level element fuel cs = .ok (vs, rest) ->
    exists nodes, (ArrayTree.level nodes).IsValid ∧ cs = (ArrayTree.level nodes).text ++ rest ∧
      values element nodes = .ok vs
  items : forall {cs vs rest}, items element fuel cs = .ok (vs, rest) ->
    exists first more, (forall n, n ∈ first :: more -> n.IsValid) ∧
      cs = first.text ++ (behind more ++ rest) ∧ values element (first :: more) = .ok vs
  item : forall {cs v rest}, item element fuel cs = .ok (v, rest) -> rest ≠ [] ->
    exists t : ArrayTree, t.IsValid ∧ cs = t.text ++ rest ∧ t.value element = .ok v

theorem exists_level {element : Oid} {fuel : Nat} (hfuel : TakesTrees element fuel)
    {cs : List Char} {vs : List Value} {rest : List Char}
    (h : level element (fuel + 1) cs = .ok (vs, rest)) :
    exists nodes, (ArrayTree.level nodes).IsValid ∧ cs = (ArrayTree.level nodes).text ++ rest ∧
      values element nodes = .ok vs := by
  rw [level.eq_def] at h
  dsimp only at h
  split at h
  · cases h
    exact ⟨[], .level (by simp) (by simp), rfl, rfl⟩
  · rename_i inner hinner
    rcases hfuel.items h with ⟨first, more, hnodes, rfl, hvalues⟩
    refine ⟨first :: more, .level ?_ hnodes, ?_, hvalues⟩
    · intro heq
      cases heq
      exact hinner _ rfl
    · rw [text_cons, List.cons_append, List.append_assoc]
  · cases h

theorem exists_items {element : Oid} {fuel : Nat} (hfuel : TakesTrees element fuel)
    {cs : List Char} {vs : List Value} {rest : List Char}
    (h : items element (fuel + 1) cs = .ok (vs, rest)) :
    exists first more, (forall n, n ∈ first :: more -> n.IsValid) ∧
      cs = first.text ++ (behind more ++ rest) ∧ values element (first :: more) = .ok vs := by
  rw [items] at h
  rcases Result.bind_eq_ok.mp h with ⟨⟨v, behindItem⟩, hitem, hnext⟩
  dsimp only at hnext
  split at hnext
  · rcases Result.bind_eq_ok.mp hnext with ⟨⟨more, tail⟩, hmore, heq⟩
    cases heq
    rcases hfuel.item hitem (List.cons_ne_nil _ _) with ⟨first, hfirst, rfl, hv⟩
    rcases hfuel.items hmore with ⟨next, nodes, hnodes, rfl, hvs⟩
    refine ⟨first, next :: nodes, List.forall_mem_cons.mpr ⟨hfirst, hnodes⟩, ?_, ?_⟩
    · rw [behind_cons, List.cons_append, List.append_assoc]
    · rw [values, hv, hvs]
      rfl
  · cases hnext
    rcases hfuel.item hitem (List.cons_ne_nil _ _) with ⟨first, hfirst, rfl, hv⟩
    refine ⟨first, [], by simpa using hfirst, rfl, ?_⟩
    rw [values, hv]
    rfl
  · cases hnext

theorem exists_item {element : Oid} {fuel : Nat} (hfuel : TakesTrees element fuel)
    {cs : List Char} {v : Value} {rest : List Char}
    (h : item element (fuel + 1) cs = .ok (v, rest)) (hrest : rest ≠ []) :
    exists t : ArrayTree, t.IsValid ∧ cs = t.text ++ rest ∧ t.value element = .ok v := by
  rw [item.eq_def] at h
  dsimp only at h
  split at h
  · rcases Result.bind_eq_ok.mp h with ⟨⟨vs, tail⟩, hlevel, heq⟩
    cases heq
    rcases hfuel.level hlevel with ⟨nodes, hnodes, htext, hvs⟩
    refine ⟨.level nodes, hnodes, htext, ?_⟩
    rw [value, hvs]
    rfl
  · split at h
    · rename_i hquoted
      rcases Result.bind_eq_ok.mp h with ⟨w, hw, heq⟩
      cases heq
      rcases exists_glyphs_of_quoted hquoted with ⟨gs, hgs, rfl, rfl⟩
      refine ⟨.leaf (.quoted gs), .leaf hgs, ?_, hw⟩
      simp [ArrayTree.text, ArrayTree.written, Leaf.text]
    · cases h
  · rename_i hlevel hquote
    rcases Result.bind_eq_ok.mp h with ⟨w, hw, heq⟩
    cases heq
    rcases exists_glyphs_of_bare rfl hrest with ⟨gs, hgs, -, htext, hcontent⟩
    refine ⟨.leaf (.bare gs), .leaf ⟨hgs, ?_⟩, htext, by rwa [<- hcontent] at hw⟩
    rintro ⟨escaped, c⟩ hfirst rfl
    rcases List.head?_eq_some_iff.mp hfirst with ⟨more, rfl⟩
    constructor
    · rintro rfl
      exact hlevel _ htext
    · rintro rfl
      exact hquote _ htext

theorem takesTrees (element : Oid) (fuel : Nat) : TakesTrees element fuel := by
  induction fuel with
  | zero => exact ⟨nofun, nofun, nofun⟩
  | succ fuel ih => exact ⟨exists_level ih, exists_items ih, exists_item ih⟩

end ArrayText

/-!
## Whole texts
-/

/-- The text of an array: maybe bounds between an opening bracket and an equals sign, then a
level. -/
structure ArrayForm where
  bounds : Option (List Char)
  nodes : List ArrayTree

namespace ArrayForm

def tree (f : ArrayForm) : ArrayTree := .level f.nodes

def opening (f : ArrayForm) : List Char :=
  match f.bounds with
  | none => []
  | some bounds => '[' :: (bounds ++ ['='])

def text (f : ArrayForm) : List Char := f.opening ++ f.tree.text

/-- The value of the elements, if each of them can be read; the bounds are left out of account. -/
def value (element : Oid) (f : ArrayForm) : Result Value := f.tree.value element

structure IsValid (f : ArrayForm) : Prop where
  bounds : forall bounds, bounds ∈ f.bounds -> '=' ∉ bounds
  tree : f.tree.IsValid

instance : DecidablePred IsValid := fun f =>
  decidable_of_iff ((forall bounds, bounds ∈ f.bounds -> '=' ∉ bounds) ∧ f.tree.IsValid)
    ⟨fun h => ⟨h.1, h.2⟩, fun h => ⟨h.bounds, h.tree⟩⟩

end ArrayForm

namespace ArrayText

theorem exists_splitAt {c : Char} {cs after : List Char}
    (h : (IntervalText.splitAt c cs).2 = some after) :
    exists before, c ∉ before ∧ cs = before ++ c :: after := by
  have hsplit : cs.takeWhile (· != c) ++ cs.dropWhile (· != c) = cs :=
    List.takeWhile_append_dropWhile
  unfold IntervalText.splitAt at h
  split at h
  · rename_i d rest hdrop
    cases h
    have hd : d = c := by
      have hhead := List.head?_dropWhile_not (· != c) cs
      rw [hdrop] at hhead
      simpa using hhead
    refine ⟨cs.takeWhile (· != c), fun hmem => ?_, ?_⟩
    · exact absurd (List.mem_takeWhile_imp hmem) (by simp)
    · rw [hdrop, hd] at hsplit
      exact hsplit.symm
  · cases h

def readBody (element : Oid) (text : String) (body : List Char) : Result Value := do
  match <- level element (fuel body) body with
  | (values, []) => return .array values
  | _ => throw (.conversion (.array (.trailing text)))

theorem read_of_bounds (element : Oid) {text : String} {more : List Char}
    (htext : text.toList = '[' :: more) :
    read element text =
      match (IntervalText.splitAt '=' text.toList).2 with
      | some body => readBody element text body
      | none => .error (.conversion (.array (.malformedBounds text))) := by
  unfold read
  rw [htext]
  dsimp only
  cases (IntervalText.splitAt '=' ('[' :: more)).2 with
  | none => rfl
  | some body => rfl

theorem read_of_no_bounds (element : Oid) {text : String}
    (htext : forall more, text.toList ≠ '[' :: more) :
    read element text = readBody element text text.toList := by
  unfold read
  dsimp only
  split
  · rename_i more heq
    exact absurd heq (htext more)
  · rfl

theorem readBody_nodes (element : Oid) (text : String) {nodes : List ArrayTree}
    (hnodes : (ArrayTree.level nodes).IsValid) :
    readBody element text (ArrayTree.level nodes).text =
      (ArrayTree.level nodes).value element := by
  have hlevel : level element (fuel (ArrayTree.level nodes).text)
      ((ArrayTree.level nodes).text ++ []) = do return (<- ArrayTree.values element nodes, []) :=
    level_nodes hnodes (fun n hn => item_tree element (ArrayTree.isValid_of_mem hnodes hn))
      (by unfold fuel; omega) []
  rw [List.append_nil] at hlevel
  rw [readBody, hlevel, ArrayTree.value]
  cases ArrayTree.values element nodes with
  | error e => rfl
  | ok vs => rfl

theorem exists_nodes {element : Oid} {text : String} {body : List Char} {v : Value}
    (h : readBody element text body = .ok v) :
    exists nodes, (ArrayTree.level nodes).IsValid ∧ (ArrayTree.level nodes).text = body ∧
      (ArrayTree.level nodes).value element = .ok v := by
  rcases Result.bind_eq_ok.mp h with ⟨⟨vs, rest⟩, hlevel, hvalue⟩
  rcases (takesTrees element (fuel body)).level hlevel with ⟨nodes, hnodes, htext, hvs⟩
  cases rest with
  | nil =>
      rw [List.append_nil] at htext
      refine ⟨nodes, hnodes, htext.symm, ?_⟩
      rw [ArrayTree.value, hvs]
      exact hvalue
  | cons c more => cases hvalue

theorem splitAt_form {bounds : List Char} {nodes : List ArrayTree}
    (hf : ArrayForm.IsValid ⟨some bounds, nodes⟩) :
    IntervalText.splitAt '=' (ArrayForm.text ⟨some bounds, nodes⟩) =
      ('[' :: bounds, some (ArrayTree.level nodes).text) := by
  have hbounds : '=' ∉ '[' :: bounds := by simpa using hf.bounds bounds rfl
  have htext : ArrayForm.text ⟨some bounds, nodes⟩ =
      '[' :: bounds ++ '=' :: (ArrayTree.level nodes).text := by
    simp [ArrayForm.text, ArrayForm.opening, ArrayForm.tree]
  rw [htext]
  exact splitAt_append hbounds _

/-- The text of a form is read as its value. -/
theorem read_form (element : Oid) {f : ArrayForm} (hf : f.IsValid) {text : String}
    (htext : f.text = text.toList) : read element text = f.value element := by
  rcases f with ⟨_ | bounds, nodes⟩
  · rcases ArrayTree.exists_text_level nodes with ⟨tail, htail⟩
    change (ArrayTree.level nodes).text = text.toList at htext
    rw [read_of_no_bounds element (by rw [<- htext, htail]; nofun), <- htext]
    exact readBody_nodes element text hf.tree
  · rw [read_of_bounds element htext.symm, <- htext, splitAt_form hf]
    exact readBody_nodes element text hf.tree

theorem exists_form {element : Oid} {text : String} {v : Value}
    (h : read element text = .ok v) :
    exists f : ArrayForm, f.IsValid ∧ f.text = text.toList ∧ f.value element = .ok v := by
  by_cases hopening : exists more, text.toList = '[' :: more
  · rcases hopening with ⟨more, htext⟩
    rw [read_of_bounds element htext, htext] at h
    cases hsplit : (IntervalText.splitAt '=' ('[' :: more)).2 with
    | none =>
        rw [hsplit] at h
        cases h
    | some body =>
        rw [hsplit] at h
        rcases exists_nodes h with ⟨nodes, hnodes, rfl, hvalue⟩
        rcases exists_splitAt hsplit with ⟨before, hbefore, heq⟩
        cases before with
        | nil => cases heq
        | cons c bounds =>
            injection heq with hc hmore
            subst hc
            refine ⟨⟨some bounds, nodes⟩, ⟨?_, hnodes⟩, ?_, hvalue⟩
            · rintro _ ⟨⟩ hmem
              exact hbefore (List.mem_cons_of_mem _ hmem)
            · rw [htext, hmore]
              simp [ArrayForm.text, ArrayForm.opening, ArrayForm.tree]
  · rw [read_of_no_bounds element fun more heq => hopening ⟨more, heq⟩] at h
    rcases exists_nodes h with ⟨nodes, hnodes, htext, hvalue⟩
    exact ⟨⟨none, nodes⟩, ⟨nofun, hnodes⟩, htext, hvalue⟩

/-- A text is read as a value exactly if it is the text of a form with that value. -/
theorem read_eq_ok_iff {element : Oid} {text : String} {v : Value} :
    read element text = .ok v <->
      exists f : ArrayForm, f.IsValid ∧ f.text = text.toList ∧ f.value element = .ok v := by
  constructor
  · exact exists_form
  · rintro ⟨f, hf, htext, hvalue⟩
    rw [read_form element hf htext, hvalue]

/-- A text has at most one form. -/
theorem form_unique {f f' : ArrayForm} (hf : f.IsValid) (hf' : f'.IsValid)
    (h : f.text = f'.text) : f = f' := by
  have hlevels : forall {nodes nodes' : List ArrayTree}, (ArrayTree.level nodes).IsValid ->
      (ArrayTree.level nodes').IsValid ->
        (ArrayTree.level nodes).text = (ArrayTree.level nodes').text -> nodes = nodes' := by
    intro nodes nodes' hnodes hnodes' heq
    have hback : forall n, n ∈ nodes -> n.IsReadBack := fun n hn =>
      ArrayTree.isReadBack (ArrayTree.isValid_of_mem hnodes hn)
    exact (ArrayTree.level_append_inj hnodes hnodes' hback (congrArg (· ++ []) heq)).1
  rcases f with ⟨_ | bounds, nodes⟩ <;> rcases f' with ⟨_ | bounds', nodes'⟩
  · exact congrArg (ArrayForm.mk none) (hlevels hf.tree hf'.tree h)
  · rcases ArrayTree.exists_text_level nodes with ⟨tail, htext⟩
    change (ArrayTree.level nodes).text = _ at h
    rw [htext] at h
    cases h
  · rcases ArrayTree.exists_text_level nodes' with ⟨tail, htext⟩
    change _ = (ArrayTree.level nodes').text at h
    rw [htext] at h
    cases h
  · have hsplit := splitAt_form hf
    rw [h, splitAt_form hf', Prod.mk.injEq, Option.some.injEq] at hsplit
    rcases hsplit with ⟨hopening, hlevel⟩
    injection hopening with _ hbounds
    subst hbounds
    exact congrArg (ArrayForm.mk _) (hlevels hf.tree hf'.tree hlevel.symm)

end ArrayText

end Wire
end TypedQuery
