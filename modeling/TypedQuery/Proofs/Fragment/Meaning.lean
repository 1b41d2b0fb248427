import TypedQuery.Proofs.Fragment.Written
import TypedQuery.Proofs.Server.Literal

/-!
# Fragments that mean a tree

A fragment means a tree when everything that may be written for it reads as a spine of that tree.
The lemmas go from the parts of a fragment to the whole: what stands around and between the parts
decides how the trees are put together.
-/

namespace TypedQuery

open Server

/-- A server that reads text: how it takes backslashes, what placeholders stand for, and the frames
that the text is written in. -/
structure Reader where
  conforming : Bool
  env : Nat -> Option Tree
  scopes : Scopes

namespace Reader

variable {r : Reader}

def spelled (r : Reader) (v : Typed) (text : List Char) : Prop :=
  AtomText r.conforming r.env text v.value.tree

/-- All that may be written for the fragment reads as the spine. -/
def Shows (r : Reader) (level : Nat) (f : Fragment) (s : Spine) : Prop :=
  forall written, f.WrittenAs r.spelled r.scopes written ->
    SpineText r.conforming r.env level written s

def Means (r : Reader) (f : Fragment) (t : Tree) : Prop :=
  exists s : Spine, r.Shows 0 f s ∧ s.Presents t

/-!
## Values
-/

theorem operandText_of_value {v : Typed} {f : Fragment} {written : List Char}
    (h : (f.value v).WrittenAs r.spelled r.scopes written) :
    exists before after, written = before ++ after ∧ f.WrittenAs r.spelled r.scopes before ∧
      OperandText r.conforming r.env after v.tree := by
  rcases h.of_value with ⟨before, after, rfl, hbefore, hinline | hbound⟩
  · rcases hinline with ⟨literal, hliteral, rfl⟩
    refine ⟨before, _, rfl, hbefore, ?_⟩
    have hbound : v.isBound = false := by
      rw [Typed.isBound, hliteral]
      rfl
    rw [Typed.tree, hbound, Value.literal_of_inline hliteral]
    exact v.value.literal_text.1
  · rcases hbound with ⟨hnone, spelling, hspelled, rfl⟩
    refine ⟨before, _, rfl, hbefore, ?_⟩
    have hbound : v.isBound = true := by
      rw [Typed.isBound, hnone]
      rfl
    exact (atomText_castOf hspelled hbound).operand

theorem means_value (v : Typed) : r.Means (Fragment.empty.value v) v.tree := by
  refine ⟨⟨v.tree, []⟩, ?_, Spine.presents_operand v.agrees_tree v.inert_tree.isTight⟩
  intro written hwritten
  rcases operandText_of_value hwritten with ⟨before, after, rfl, hbefore, hafter⟩
  rw [hbefore.eq_of_empty]
  exact hafter.spine (Nat.zero_le _)

/-!
## Fragments in fragments
-/

variable {f g h : Fragment} {t u v T : Tree}

theorem Means.wrap (hf : r.Means f t) {before after : String} (build : Tree -> Spine)
    (hbuild : forall text tree, WholeText r.conforming r.env text tree ->
      SpineText r.conforming r.env 0 (before.toList ++ (text ++ after.toList)) (build tree))
    (hpresents : forall tree, tree.Agrees t -> (build tree).Presents T) :
    r.Means (((Fragment.empty.text before).nested f).text after) T := by
  rcases hf with ⟨s, hshows, hs⟩
  refine ⟨build s.tree, ?_, hpresents s.tree hs.agrees⟩
  intro written hwritten
  rcases hwritten.of_text with ⟨_, rfl, hnested⟩
  rcases hnested.of_nested with ⟨_, text, rfl, hopening, htext⟩
  rcases hopening.of_text with ⟨_, rfl, hempty⟩
  rw [hempty.eq_of_empty, List.nil_append, List.append_assoc]
  exact hbuild text s.tree (hshows text htext).whole

theorem Means.wrap₂ (hf : r.Means f t) (hg : r.Means g u) {before between after : String}
    (build : Tree -> Tree -> Spine)
    (hbuild : forall text tree text' tree', WholeText r.conforming r.env text tree ->
      WholeText r.conforming r.env text' tree' ->
        SpineText r.conforming r.env 0
          (before.toList ++ (text ++ (between.toList ++ (text' ++ after.toList))))
          (build tree tree'))
    (hpresents : forall tree tree', tree.Agrees t -> tree'.Agrees u ->
      (build tree tree').Presents T) :
    r.Means (((((Fragment.empty.text before).nested f).text between).nested g).text after) T := by
  rcases hf with ⟨s, hshows, hs⟩
  rcases hg with ⟨s', hshows', hs'⟩
  refine ⟨build s.tree s'.tree, ?_, hpresents _ _ hs.agrees hs'.agrees⟩
  intro written hwritten
  rcases hwritten.of_text with ⟨_, rfl, hsecond⟩
  rcases hsecond.of_nested with ⟨_, text', rfl, hmiddle, htext'⟩
  rcases hmiddle.of_text with ⟨_, rfl, hfirst⟩
  rcases hfirst.of_nested with ⟨_, text, rfl, hopening, htext⟩
  rcases hopening.of_text with ⟨_, rfl, hempty⟩
  rw [hempty.eq_of_empty, List.nil_append]
  simp only [List.append_assoc]
  exact hbuild text s.tree text' s'.tree (hshows text htext).whole (hshows' text' htext').whole

theorem Means.arrow (hf : r.Means f t) (hg : r.Means g u) :
    r.Means ((((Fragment.empty.text "(").nested f).text ")->").nested g) (.binary "->" t u) := by
  rcases hf with ⟨s, hshows, hs⟩
  rcases hg with ⟨s', hshows', hs'⟩
  refine ⟨_, ?_, Spine.Presents.arrow hs.agrees hs' false⟩
  intro written hwritten
  rcases hwritten.of_nested with ⟨_, text', rfl, hmiddle, htext'⟩
  rcases hmiddle.of_text with ⟨_, rfl, hfirst⟩
  rcases hfirst.of_nested with ⟨_, text, rfl, hopening, htext⟩
  rcases hopening.of_text with ⟨_, rfl, hempty⟩
  rw [hempty.eq_of_empty, List.nil_append]
  have harrow := (hshows text htext).whole.group.arrow false (hshows' text' htext')
  simpa [arrowSymbol] using harrow

/-!
## Calls
-/

theorem exists_trees {fs : List Fragment} {ts : List Tree} (h : List.Forall₂ r.Means fs ts) :
    exists us, List.Forall₂ Tree.Agrees us ts ∧
      forall texts,
        List.Forall₂ (fun f text => f.WrittenAs r.spelled r.scopes text) fs texts ->
          List.Forall₂ (WholeText r.conforming r.env) texts us := by
  induction h with
  | nil =>
      refine ⟨[], .nil, ?_⟩
      intro texts htexts
      cases htexts
      exact .nil
  | cons hfirst _ ih =>
      rcases hfirst with ⟨s, hshows, hs⟩
      rcases ih with ⟨us, hagree, hread⟩
      refine ⟨s.tree :: us, .cons hs.agrees hagree, ?_⟩
      intro texts htexts
      cases htexts with
      | cons htext hrest => exact .cons (hshows _ htext).whole (hread _ hrest)

theorem Means.joined (hf : r.Means f t) {fs : List Fragment} {ts : List Tree}
    (hfs : List.Forall₂ r.Means fs ts) {name before after : String} {fixed : List (List Char)}
    {more : List Tree} (hbefore : before.toList = name.toList ++ ['('])
    (hafter : after.toList = commaTail fixed ++ [')'])
    (hfixed : List.Forall₂ (WholeText r.conforming r.env) fixed more)
    (hagree : List.Forall₂ Tree.Agrees more more)
    (hcall : isCall name (t :: (ts ++ more)).length = true) :
    r.Means (((Fragment.empty.text before).joined (f :: fs) ", ").text after)
      (.call name (t :: (ts ++ more))) := by
  rcases hf with ⟨s, hshows, hs⟩
  rcases exists_trees hfs with ⟨us, hus, hread⟩
  have hall : List.Forall₂ Tree.Agrees (s.tree :: (us ++ more)) (t :: (ts ++ more)) :=
    .cons hs.agrees (List.rel_append hus hagree)
  refine ⟨⟨.call name (s.tree :: (us ++ more)), []⟩, ?_,
    Spine.presents_operand (Tree.Agrees.call hall name) rfl⟩
  intro written hwritten
  rcases hwritten.of_text with ⟨_, rfl, hjoined⟩
  rcases Fragment.WrittenAs.of_foldl hjoined with ⟨_, texts, rfl, hfirst, htexts⟩
  rcases hfirst.of_nested with ⟨_, text, rfl, hopening, htext⟩
  rcases hopening.of_text with ⟨_, rfl, hempty⟩
  have hitems := itemsText_commas (hshows text htext).whole
    (List.rel_append (hread texts htexts) hfixed)
  have hatom := hitems.call name (by rwa [hall.length_eq])
  rw [hempty.eq_of_empty, hbefore, hafter]
  simpa [commaTail] using hatom.spine

end Reader

end TypedQuery
