import TypedQuery.Proofs.Server.Evaluation
import TypedQuery.Proofs.Statement.Helped

/-!
# What helpers write, as trees

What a list or JSON helper writes is read as a tree of its own, which is made of the trees of the
pending expression, of the value and of the path.
-/

namespace TypedQuery

open Server

/-!
## Fragments between texts
-/

namespace Fragment.WrittenAs

variable {spelled : Typed -> List Char -> Prop} {scopes : Scopes} {f g h : Fragment}
  {written : List Char}

theorem of_between {before after : String}
    (hwritten : (((Fragment.empty.text before).nested f).text after).WrittenAs spelled scopes
      written) :
    exists text, written = before.toList ++ (text ++ after.toList) ∧
      f.WrittenAs spelled scopes text := by
  rcases hwritten.of_text with ⟨_, rfl, hnested⟩
  rcases hnested.of_nested with ⟨_, text, rfl, hopening, htext⟩
  rcases hopening.of_text with ⟨_, rfl, hempty⟩
  exact ⟨text, by rw [hempty.eq_of_empty, List.nil_append, List.append_assoc], htext⟩

theorem of_between₂ {before between after : String}
    (hwritten : (((((Fragment.empty.text before).nested f).text between).nested g).text
      after).WrittenAs spelled scopes written) :
    exists text text', written =
        before.toList ++ (text ++ (between.toList ++ (text' ++ after.toList))) ∧
      f.WrittenAs spelled scopes text ∧ g.WrittenAs spelled scopes text' := by
  rcases hwritten.of_text with ⟨_, rfl, hnested⟩
  rcases hnested.of_nested with ⟨_, text', rfl, hfirst, htext'⟩
  rcases hfirst.of_between with ⟨text, rfl, htext⟩
  exact ⟨text, text', by simp only [List.append_assoc], htext, htext'⟩

theorem of_between₃ {before between between' after : String}
    (hwritten : (((((((Fragment.empty.text before).nested f).text between).nested g).text
      between').nested h).text after).WrittenAs spelled scopes written) :
    exists text text' text'', written = before.toList ++ (text ++ (between.toList ++
        (text' ++ (between'.toList ++ (text'' ++ after.toList))))) ∧
      f.WrittenAs spelled scopes text ∧ g.WrittenAs spelled scopes text' ∧
        h.WrittenAs spelled scopes text'' := by
  rcases hwritten.of_text with ⟨_, rfl, hnested⟩
  rcases hnested.of_nested with ⟨_, text'', rfl, hfirst, htext''⟩
  rcases hfirst.of_between₂ with ⟨text, text', rfl, htext, htext'⟩
  exact ⟨text, text', text'', by simp only [List.append_assoc], htext, htext', htext''⟩

end Fragment.WrittenAs

/-!
## Readings of fragments
-/

namespace Reader

/-- All that may be written for the fragment is read as the tree, perhaps with queries in it. -/
def Yields (r : Reader) (f : Fragment) (t : Tree) : Prop :=
  forall written, f.WrittenAs r.spelled r.scopes written ->
    QueryText r.conforming r.env written t

def YieldsAtom (r : Reader) (f : Fragment) (t : Tree) : Prop :=
  forall written, f.WrittenAs r.spelled r.scopes written ->
    QueryAtomText r.conforming r.env written t

variable {r : Reader} {f g : Fragment} {s t u : Tree}

theorem YieldsAtom.yields (h : r.YieldsAtom f t) : r.Yields f t :=
  fun written hwritten => (h written hwritten).whole

theorem Means.yields (h : r.Means f t) (harrows : t.arrowsTight = true)
    (hqualified : t.isQualified = true) : r.Yields f t := by
  rcases h with ⟨spine, hshows, hspine⟩
  have htree : spine.tree = t := hspine.agrees.eq_iff.mpr harrows
  intro written hwritten
  have hwhole := (hshows written hwritten).whole
  rw [htree] at hwhole
  exact hwhole.query hqualified

theorem yields_value (v : Typed) : r.Yields (Fragment.empty.value v) v.tree :=
  (means_value v).yields v.inert_tree.arrowsTight v.inert_tree.isQualified

theorem yieldsAtom_text {text : String} {t : Tree}
    (h : AtomText r.conforming r.env text.toList t) (hqualified : t.isQualified = true) :
    r.YieldsAtom (Fragment.empty.text text) t := by
  intro written hwritten
  rcases hwritten.of_text with ⟨_, rfl, hempty⟩
  rw [hempty.eq_of_empty]
  exact h.query hqualified

theorem yieldsAtom_column {t : Table} (hscopes : r.scopes = t.ownScopes) (name : String) :
    r.YieldsAtom (Fragment.empty.column .root name) (.column none name) := by
  intro written hwritten
  rcases hwritten.of_column with ⟨_, rfl, hempty⟩
  have hatom : AtomText r.conforming r.env (r.scopes.columnText .root name).toList
      (r.scopes.columnTree .root name) := atomText_column r.scopes .root name
  have htree : r.scopes.columnTree .root name = .column none name := by
    rw [Scopes.columnTree, hscopes, t.qualifierName?_ownScopes]
  rw [htree] at hatom
  rw [hempty.eq_of_empty]
  exact hatom.query rfl

end Reader

/-!
## Trees of list helpers
-/

def ListHelper.tree (h : ListHelper) (current value : Tree) : Tree :=
  match h with
  | add => .call "array_cat" [current, value]
  | addDistinct =>
      .call "array_cat" [current,
        ElementQuery.list.tree value
          (.unary "NOT" (.quantified "=" false (.column none "e")
            (.call "coalesce" [current, .string "\x7b\x7d"])))]
  | remove => .call "array_remove" [current, value]
  | removeAll => ElementQuery.list.tree current (.quantified "<>" true (.column none "e") value)

namespace Reader

variable {r : Reader} {f g : Fragment} {s t u : Tree}

theorem Yields.call₂ (hf : r.Yields f s) (hg : r.Yields g t) {before name : String}
    (hopen : Opens r.conforming before.toList [.word name, .mark '('])
    (hname : name ∉ reservedWords) (htakes : takes name 2 = true) :
    r.YieldsAtom (((((Fragment.empty.text before).nested f).text ", ").nested g).text ")")
      (.call name [s, t]) := by
  intro written hwritten
  rcases hwritten.of_between₂ with ⟨text, text', rfl, htext, htext'⟩
  have hitems := (hf text htext).consItem (hg text' htext').lastItem
  simpa using hitems.call hopen hname htakes

theorem queryAtomText_coalesce {conforming : Bool} {env : Nat -> Option Tree} {text : List Char}
    {default : String} (h : QueryText conforming env text s)
    (hdefault : QueryText conforming env default.toList t) :
    QueryAtomText conforming env
      ("COALESCE(".toList ++ ((text ++ (", ".toList ++ default.toList)) ++ [')']))
      (.call "coalesce" [s, t]) :=
  (h.consItem hdefault.lastItem).call (by cases conforming <;> rfl) (by decide) rfl

theorem yields_listHelper (h : ListHelper) (value : Expr) (type : SqlType)
    {current v : TypedFragment} (hcurrent : r.Yields current.query t) (hv : r.Yields v.query u) :
    r.YieldsAtom ((h.assignment value).written type current v).query (h.tree t u) := by
  cases h with
  | add => exact hcurrent.call₂ hv rfl (by decide) rfl
  | addDistinct =>
      dsimp only [ListHelper.assignment, Assignment.written]
      intro written hwritten
      rcases hwritten.of_between₃ with ⟨text, text', text'', rfl, htext, htext', htext''⟩
      have hdefault : AtomText r.conforming r.env "'\x7b\x7d'".toList (.string "\x7b\x7d") :=
        Reader.atomText_literal rfl
      have habsent := (queryAtomText_coalesce (hcurrent text'' htext'')
        (hdefault.query rfl).whole).whole.notAny
      have hadded := ((hv text' htext').list habsent).whole
      have hitems := (hcurrent text htext).consItem hadded.lastItem
      have hopen : Opens r.conforming "array_cat(".toList [.word "array_cat", .mark '('] := rfl
      have hcall := hitems.call hopen (by decide) rfl
      have hunnest : ", ARRAY(SELECT e FROM unnest(".toList =
          ", ".toList ++ "ARRAY(SELECT e FROM unnest(".toList := rfl
      have hwhere : ") AS e WHERE NOT (e = ANY(COALESCE(".toList =
          ") AS e WHERE ".toList ++ ("NOT (e = ANY(".toList ++ "COALESCE(".toList) := rfl
      have hclose : ", '\x7b\x7d')))))".toList =
          ", ".toList ++ ("'\x7b\x7d'".toList ++ ([')'] ++ ([')', ')'] ++ ([')'] ++ [')'])))) := rfl
      simpa only [ListHelper.tree, hunnest, hwhere, hclose, List.append_assoc] using hcall
  | remove => exact hcurrent.call₂ hv rfl (by decide) rfl
  | removeAll =>
      dsimp only [ListHelper.assignment, Assignment.written]
      intro written hwritten
      rcases hwritten.of_between₂ with ⟨text, text', rfl, htext, htext'⟩
      have hquery := (hcurrent text htext).list (hv text' htext').all
      have hwhere : ") AS e WHERE e <> ALL(".toList =
          ") AS e WHERE ".toList ++ "e <> ALL(".toList := rfl
      have hclose : "))".toList = [')'] ++ [')'] := rfl
      simpa only [ListHelper.tree, hwhere, hclose, List.append_assoc] using hquery

end Reader

/-!
## Trees of paths
-/

def JsonStep.tree (step : JsonStep) : Tree := Typed.tree ⟨.text step.asText, .text⟩

def pathTree (steps : List JsonStep) : Tree :=
  .cast (.array (steps.map JsonStep.tree)) (SqlType.array .text).tokens

namespace Reader

variable {r : Reader}

theorem itemsText_steps {rest : List JsonStep} {n : Nat} {f : Fragment} {written : List Char}
    (h : ((rest.zipIdx (n + 1)).foldl (fun query entry =>
      (if entry.2 = 0 then query else query.text ",").value ⟨.text entry.1.asText, .text⟩)
        f).WrittenAs r.spelled r.scopes written) :
    exists before more, written = before ++ more ∧ f.WrittenAs r.spelled r.scopes before ∧
      forall text t, WholeText r.conforming r.env text t ->
        ItemsText r.conforming r.env (text ++ more) (t :: rest.map JsonStep.tree) := by
  induction rest generalizing n f with
  | nil =>
      refine ⟨written, [], (List.append_nil _).symm, h, ?_⟩
      intro text t htext
      rw [List.append_nil]
      exact htext.lastItem
  | cons step rest ih =>
      rw [List.zipIdx_cons, List.foldl_cons, if_neg (Nat.succ_ne_zero n)] at h
      rcases ih h with ⟨_, more, rfl, hvalue, hitems⟩
      rcases operandText_of_value hvalue with ⟨_, next, rfl, hcomma, hnext⟩
      rcases hcomma.of_text with ⟨before, rfl, hbefore⟩
      refine ⟨before, ',' :: (next ++ more), ?_, hbefore, ?_⟩
      · rw [List.append_assoc, List.append_assoc]
        rfl
      · intro text t htext
        exact htext.consItem (hitems next step.tree hnext.whole)

theorem isQualified_pathTree (steps : List JsonStep) : (pathTree steps).isQualified = true := by
  have hall : Tree.allQualified (steps.map JsonStep.tree) = true := by
    induction steps with
    | nil => rfl
    | cons step rest ih =>
        rw [List.map_cons, Tree.allQualified, ih, JsonStep.tree, (Typed.inert_tree _).isQualified]
        rfl
  rw [pathTree, Tree.isQualified, Tree.isQualified, hall]

theorem yieldsAtom_pathArray (steps : List JsonStep) :
    r.YieldsAtom (Update.pathArray steps) (pathTree steps) := by
  intro written hwritten
  unfold Update.pathArray at hwritten
  rcases hwritten.of_text with ⟨before, rfl, hitems⟩
  cases steps with
  | nil =>
      rcases Fragment.WrittenAs.of_text hitems with ⟨_, rfl, hempty⟩
      rw [hempty.eq_of_empty]
      have hopens : Opens r.conforming ([] ++ "ARRAY[".toList ++ "]::text[]".toList)
          [.word "array", .mark '[', .mark ']', .typecast, .word "text", .mark '[', .mark ']'] := by
        cases r.conforming <;> rfl
      exact ⟨_, hopens.lexes, fun frames stack => ⟨_, rfl, rfl⟩⟩
  | cons step rest =>
      rw [List.zipIdx_cons, List.foldl_cons, if_pos rfl] at hitems
      rcases itemsText_steps hitems with ⟨_, more, rfl, hvalue, hrest⟩
      rcases operandText_of_value hvalue with ⟨_, first, rfl, hopening, hfirst⟩
      rcases hopening.of_text with ⟨_, rfl, hempty⟩
      have harray := (hrest first step.tree hfirst.whole).array (List.cons_ne_nil _ _)
      have hcast := (harray.cast (.array .text)).query (isQualified_pathTree (step :: rest))
      have hclose : "]::text[]".toList =
          [']'] ++ ':' :: ':' :: (SqlType.array .text).cast.toList := by
        decide
      rw [hempty.eq_of_empty, hclose]
      simpa only [pathTree, List.map_cons, List.nil_append, List.append_assoc] using hcast

end Reader

/-!
## Trees of JSON helpers
-/

def JsonHelper.tree (h : JsonHelper) (steps : List JsonStep) (current value : Tree) : Tree :=
  let path := pathTree steps
  let default := .call "coalesce" [current, .emptyObject]
  match h with
  | set =>
      if steps.isEmpty then value
      else .call "jsonb_set" [default, path, value, .keyword "true"]
  | append => .call "jsonb_append_at_path" [default, path, value]
  | removeValue =>
      let elements := if steps.isEmpty then current else .binary "#>" current path
      let kept := ElementQuery.document.tree elements (.binary "<>" (.column none "e") value)
      if steps.isEmpty then kept else .call "jsonb_set" [current, path, kept]

namespace Reader

variable {r : Reader} {f g : Fragment} {s t : Tree}

theorem queryText_emptyObject {conforming : Bool} {env : Nat -> Option Tree} :
    QueryText conforming env "'\x7b\x7d'::jsonb".toList .emptyObject := by
  have hatom : AtomText conforming env "'\x7b\x7d'".toList (.string "\x7b\x7d") :=
    Reader.atomText_literal rfl
  exact ((hatom.cast (.json none)).query rfl).whole

theorem Yields.documentCall (hf : r.Yields f s) (steps : List JsonStep) (hg : r.Yields g t)
    {before after name : String} {opening tail : List Char} {more : List Tree}
    (hbefore : before.toList = opening ++ "COALESCE(".toList)
    (hafter : after.toList = tail ++ [')'])
    (hopen : Opens r.conforming opening [.word name, .mark '('])
    (hname : name ∉ reservedWords) (htakes : takes name (more.length + 3) = true)
    (htail : forall text u, QueryText r.conforming r.env text u ->
      QueryItemsText r.conforming r.env (text ++ tail) (u :: more)) :
    r.YieldsAtom (((((((Fragment.empty.text before).nested f).text ", '\x7b\x7d'::jsonb), ").nested
      (Update.pathArray steps)).text ", ").nested g).text after)
      (.call name (.call "coalesce" [s, .emptyObject] :: pathTree steps :: t :: more)) := by
  intro written hwritten
  rcases hwritten.of_between₃ with ⟨text, text', text'', rfl, htext, htext', htext''⟩
  have hpath := (yieldsAtom_pathArray steps text' htext').whole
  have hdefault := (queryAtomText_coalesce (hf text htext) queryText_emptyObject).whole
  have hitems := hdefault.consItem (hpath.consItem (htail text'' t (hg text'' htext'')))
  have hbetween : ", '\x7b\x7d'::jsonb), ".toList =
      ", ".toList ++ ("'\x7b\x7d'::jsonb".toList ++ ([')'] ++ ", ".toList)) := rfl
  have hcall := hitems.call hopen hname htakes
  simpa only [hbefore, hbetween, hafter, List.append_assoc] using hcall

theorem Yields.kept (hf : r.Yields f s) (hg : r.YieldsAtom g t) :
    r.YieldsAtom (((((Fragment.empty.text
        "(SELECT COALESCE(jsonb_agg(e), '[]'::jsonb) FROM jsonb_array_elements(").nested
          f).text ") AS e WHERE e <> ").nested g).text ")")
      (ElementQuery.document.tree s (.binary "<>" (.column none "e") t)) := by
  intro written hwritten
  rcases hwritten.of_between₂ with ⟨text, text', rfl, htext, htext'⟩
  have hquery := (hf text htext).document (hg text' htext').compared
  have hwhere : ") AS e WHERE e <> ".toList = ") AS e WHERE ".toList ++ "e <> ".toList := rfl
  have hclose : ")".toList = [')'] := rfl
  simpa only [hwhere, hclose, List.append_assoc] using hquery

theorem YieldsAtom.reached (hf : r.YieldsAtom f s) (hg : r.YieldsAtom g t) :
    r.YieldsAtom (((((Fragment.empty.text "(").nested f).text " #> ").nested g).text ")")
      (.binary "#>" s t) := by
  intro written hwritten
  rcases hwritten.of_between₂ with ⟨text, text', rfl, htext, htext'⟩
  exact (hf text htext).reached (hg text' htext')

theorem yields_set (steps : List JsonStep) {current v : TypedFragment}
    (hcurrent : r.Yields current.query s) (hv : r.Yields v.query t) :
    r.Yields (JsonHelper.set.written steps current v).query (JsonHelper.set.tree steps s t) := by
  dsimp only [JsonHelper.written, JsonHelper.tree]
  split
  · exact hv
  · have htrue : AtomText r.conforming r.env "true".toList (.keyword "true") :=
      atomText_keyword ⟨[], _, _, rfl, closes_word _ _, rfl⟩ (Or.inl rfl) rfl
    have hbefore : "jsonb_set(COALESCE(".toList =
        "jsonb_set(".toList ++ "COALESCE(".toList := rfl
    have hafter : ", true)".toList = (", ".toList ++ "true".toList) ++ [')'] := rfl
    have hcall := hcurrent.documentCall steps hv hbefore hafter rfl (by decide) rfl
      fun text u htext => htext.consItem (htrue.query rfl).whole.lastItem
    exact hcall.yields

theorem yieldsAtom_append (steps : List JsonStep) {current v : TypedFragment}
    (hcurrent : r.Yields current.query s) (hv : r.Yields v.query t) :
    r.YieldsAtom (JsonHelper.append.written steps current v).query
      (JsonHelper.append.tree steps s t) := by
  have hbefore : "jsonb_append_at_path(COALESCE(".toList =
      "jsonb_append_at_path(".toList ++ "COALESCE(".toList := rfl
  have hafter : ")".toList = [] ++ [')'] := rfl
  refine hcurrent.documentCall steps hv hbefore hafter rfl (by decide) rfl ?_
  intro text u htext
  rw [List.append_nil]
  exact htext.lastItem

theorem yieldsAtom_removeValue (steps : List JsonStep) {current v : TypedFragment}
    (hcurrent : r.YieldsAtom current.query s) (hv : r.YieldsAtom v.query t) :
    r.YieldsAtom (JsonHelper.removeValue.written steps current v).query
      (JsonHelper.removeValue.tree steps s t) := by
  have hpath := yieldsAtom_pathArray (r := r) steps
  dsimp only [JsonHelper.written, JsonHelper.tree]
  split
  · exact hcurrent.yields.kept hv
  · have hkept := (hcurrent.reached hpath).yields.kept hv
    intro written hwritten
    rcases hwritten.of_between₃ with ⟨text, text', text'', rfl, htext, htext', htext''⟩
    have hitems := (hcurrent text htext).whole.consItem ((hpath text' htext').whole.consItem
      (hkept text'' htext'').whole.lastItem)
    have hopen : Opens r.conforming "jsonb_set(".toList [.word "jsonb_set", .mark '('] := rfl
    have hcall := hitems.call hopen (by decide) rfl
    have hclose : ")".toList = [')'] := rfl
    simpa only [hclose, List.append_assoc] using hcall

end Reader
end TypedQuery
