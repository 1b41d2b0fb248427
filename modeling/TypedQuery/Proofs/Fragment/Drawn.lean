import TypedQuery.Proofs.Fragment.Whole

/-!
# Whole fragments

A fragment is whole when it has a sketch whose words are whole in all frames.  Builder operations
keep this up: what is appended decides, by how it starts and ends, whether the fragment is whole
or an opening for more.
-/

namespace TypedQuery

/-!
## Sketches of longer fragments
-/

namespace Sketch

def push (last : Sketch) : List Sketch -> List Sketch
  | [] => [last]
  | [first] =>
      match first, last with
      | .words ws, .words more => [.words (ws ++ more)]
      | first, last => [first, last]
  | first :: next :: rest => first :: push last (next :: rest)

theorem parts_push (last : Sketch) (all : List Sketch) :
    parts (push last all) = pushPart last.part (parts all) := by
  induction all with
  | nil => rfl
  | cons first rest ih =>
      cases rest with
      | nil =>
          cases first with
          | words ws =>
              cases last with
              | words more => simp [push, parts, part, pushPart]
              | _ => simp [push, parts, part, pushPart]
          | _ => simp [push, parts, part, pushPart]
      | cons next more =>
          rw [push, parts, ih]
          simp [parts, pushPart]

theorem allWordsIn_push (scopes : Scopes) (last : Sketch) (all : List Sketch) :
    allWordsIn scopes (push last all) = allWordsIn scopes all ++ last.wordsIn scopes := by
  induction all with
  | nil => simp [push, allWordsIn]
  | cons first rest ih =>
      cases rest with
      | nil =>
          cases first with
          | words ws =>
              cases last with
              | words more => simp [push, allWordsIn, wordsIn]
              | _ => simp [push, allWordsIn, wordsIn]
          | _ => simp [push, allWordsIn]
      | cons next more =>
          rw [push, allWordsIn, ih]
          simp [allWordsIn]

end Sketch

namespace Fragment

/-- The fragment has a sketch whose words have a property in all frames. -/
def Drawn (P : List Word -> Prop) (f : Fragment) : Prop :=
  exists all, Sketch.parts all = f.parts ∧ forall scopes, P (Sketch.allWordsIn scopes all)

def Opening (f : Fragment) : Prop := f.Drawn Word.Opening

def Whole (f : Fragment) : Prop := f.Drawn Word.Whole

variable {f g : Fragment} {P Q R : List Word -> Prop}

theorem Drawn.push (hf : f.Drawn P) {last : Sketch} {part : Part} (hpart : last.part = part)
    (h : forall scopes ws, P ws -> Q (ws ++ last.wordsIn scopes)) : (f.push part).Drawn Q := by
  rcases hf with ⟨all, hall, hP⟩
  refine ⟨Sketch.push last all, ?_, ?_⟩
  · rw [Sketch.parts_push, hall, hpart]
    rfl
  · intro scopes
    rw [Sketch.allWordsIn_push]
    exact h scopes _ (hP scopes)

theorem Drawn.text (hf : f.Drawn P) {s : String} {more : List Word} (hs : Word.spell more = s)
    (h : forall ws, P ws -> Q (ws ++ more)) : (f.text s).Drawn Q := by
  have hpart : (Sketch.words more).part = .text s := by
    rw [Sketch.part, hs]
  exact hf.push hpart fun _ ws hws => h ws hws

theorem Drawn.nested (hf : f.Drawn P) (hg : g.Drawn R)
    (h : forall ws more, P ws -> R more -> Q (ws ++ more)) : (f.nested g).Drawn Q := by
  rcases hg with ⟨inner, hinner, hR⟩
  have hpart : (Sketch.nested inner).part = .nested g.parts := by
    rw [Sketch.part, hinner]
  exact hf.push hpart fun scopes ws hws => h ws _ hws (hR scopes)

theorem Drawn.frame (hf : f.Drawn P) {inner : Frame} (hg : inner.query.Drawn R)
    (h : forall ws more, P ws -> R more -> Q (ws ++ more)) : (f.frame inner).Drawn Q := by
  rcases hg with ⟨all, hall, hR⟩
  have hpart : (Sketch.frame inner.aliases inner.unqualified all).part =
      .frame inner.aliases inner.unqualified inner.query.parts := by
    rw [Sketch.part, hall]
  exact hf.push hpart fun scopes ws hws => h ws _ hws (hR (scopes.push _ _))

/-!
## Texts
-/

def IsWholeText (s : String) : Prop :=
  exists ws, Word.spell ws = s ∧ Word.Whole ws

def IsOpener (s : String) : Prop :=
  exists ws, Word.spell ws = s ∧ Word.Opening ws

def IsJoiner (s : String) : Prop :=
  exists ws, Word.spell ws = s ∧ Word.Opening ws ∧ Word.Delimited ws

def IsCloser (s : String) : Prop :=
  exists ws, Word.spell ws = s ∧ Word.Whole ws ∧ Word.Delimited ws

variable {s t : String}

theorem spell_sql (s : String) : Word.spell [.sql s] = s := String.append_empty

theorem isOpener_empty : IsOpener "" := ⟨[], rfl, .nil⟩

theorem isOpener_sql (h : Word.isOpening [.sql s] = true) : IsOpener s :=
  ⟨[.sql s], spell_sql s, Word.opening_of_isOpening h⟩

theorem isJoiner_sql (h : Word.isOpening [.sql s] = true)
    (hdelimited : Word.isDelimited [.sql s] = true) : IsJoiner s :=
  ⟨[.sql s], spell_sql s, Word.opening_of_isOpening h, Word.delimited_of_isDelimited hdelimited⟩

theorem isWholeText_sql (h : Word.isWhole [.sql s] = true) : IsWholeText s :=
  ⟨[.sql s], spell_sql s, Word.whole_of_isWhole h⟩

theorem isCloser_sql (h : Word.isWhole [.sql s] = true)
    (hdelimited : Word.isDelimited [.sql s] = true) : IsCloser s :=
  ⟨[.sql s], spell_sql s, Word.whole_of_isWhole h, Word.delimited_of_isDelimited hdelimited⟩

theorem isWholeText_quoteIdent (name : String) : IsWholeText (Text.quoteIdent name) :=
  ⟨[.ident name], String.append_empty, Word.whole_ident name⟩

theorem isWholeText_quoteLiteral (text : String) : IsWholeText (Text.quoteLiteral text) :=
  ⟨[.constant text], String.append_empty, Word.whole_constant text⟩

theorem isWholeText_integer (n : Int) : IsWholeText (toString n) :=
  ⟨[.sql (toString n)], spell_sql _, Word.whole_integer n⟩

theorem IsOpener.append (hs : IsOpener s) (ht : IsOpener t) : IsOpener (s ++ t) := by
  rcases hs with ⟨ws, rfl, hws⟩
  rcases ht with ⟨more, rfl, hmore⟩
  exact ⟨ws ++ more, Word.spell_append ws more, hws.append hmore⟩

theorem IsOpener.whole (hs : IsOpener s) (ht : IsWholeText t) : IsWholeText (s ++ t) := by
  rcases hs with ⟨ws, rfl, hws⟩
  rcases ht with ⟨more, rfl, hmore⟩
  exact ⟨ws ++ more, Word.spell_append ws more, hws.whole hmore⟩

theorem IsWholeText.joiner (hs : IsWholeText s) (ht : IsJoiner t) : IsOpener (s ++ t) := by
  rcases hs with ⟨ws, rfl, hws⟩
  rcases ht with ⟨more, rfl, hmore, hdelimited⟩
  exact ⟨ws ++ more, Word.spell_append ws more, hws.opening hmore hdelimited⟩

theorem IsWholeText.closer (hs : IsWholeText s) (ht : IsCloser t) : IsWholeText (s ++ t) := by
  rcases hs with ⟨ws, rfl, hws⟩
  rcases ht with ⟨more, rfl, hmore, hdelimited⟩
  exact ⟨ws ++ more, Word.spell_append ws more, hws.append hmore hdelimited⟩

theorem IsJoiner.append (hs : IsJoiner s) (ht : IsOpener t) : IsJoiner (s ++ t) := by
  rcases hs with ⟨ws, rfl, hws, hdelimited⟩
  rcases ht with ⟨more, rfl, hmore⟩
  exact ⟨ws ++ more, Word.spell_append ws more, hws.append hmore, hdelimited.append more⟩

theorem IsJoiner.whole (hs : IsJoiner s) (ht : IsWholeText t) : IsCloser (s ++ t) := by
  rcases hs with ⟨ws, rfl, hws, hdelimited⟩
  rcases ht with ⟨more, rfl, hmore⟩
  exact ⟨ws ++ more, Word.spell_append ws more, hws.whole hmore, hdelimited.append more⟩

theorem IsCloser.joiner (hs : IsCloser s) (ht : IsJoiner t) : IsJoiner (s ++ t) := by
  rcases hs with ⟨ws, rfl, hws, hdelimited⟩
  rcases ht with ⟨more, rfl, hmore, hdelimited'⟩
  exact ⟨ws ++ more, Word.spell_append ws more, hws.opening hmore hdelimited',
    hdelimited.append more⟩

theorem IsCloser.closer (hs : IsCloser s) (ht : IsCloser t) : IsCloser (s ++ t) := by
  rcases hs with ⟨ws, rfl, hws, hdelimited⟩
  rcases ht with ⟨more, rfl, hmore, hdelimited'⟩
  exact ⟨ws ++ more, Word.spell_append ws more, hws.append hmore hdelimited',
    hdelimited.append more⟩

theorem IsJoiner.isOpener (h : IsJoiner s) : IsOpener s := by
  rcases h with ⟨ws, hs, hopening, -⟩
  exact ⟨ws, hs, hopening⟩

theorem IsCloser.isWholeText (h : IsCloser s) : IsWholeText s := by
  rcases h with ⟨ws, hs, hwhole, -⟩
  exact ⟨ws, hs, hwhole⟩

theorem isWholeText_intercalate (hs : IsJoiner s) {texts : List String} (hne : texts ≠ [])
    (h : forall text, text ∈ texts -> IsWholeText text) : IsWholeText (s.intercalate texts) := by
  induction texts with
  | nil => exact absurd rfl hne
  | cons text rest ih =>
      have htext := h text List.mem_cons_self
      cases rest with
      | nil =>
          rw [String.intercalate_singleton]
          exact htext
      | cons next more =>
          have hrest := ih (List.cons_ne_nil next more) fun t ht => h t (List.mem_cons_of_mem _ ht)
          rw [String.intercalate_cons_cons]
          exact (htext.joiner hs).whole hrest

/-!
## Operations
-/

theorem opening_empty : empty.Opening := ⟨[], rfl, fun _ => .nil⟩

namespace Opening

theorem text (hf : f.Opening) (hs : IsOpener s) : (f.text s).Opening := by
  rcases hs with ⟨more, hs, hmore⟩
  exact Drawn.text hf hs fun ws hws => hws.append hmore

theorem wholeText (hf : f.Opening) (hs : IsWholeText s) : (f.text s).Whole := by
  rcases hs with ⟨more, hs, hmore⟩
  exact Drawn.text hf hs fun ws hws => hws.whole hmore

theorem nested (hf : f.Opening) (hg : g.Whole) : (f.nested g).Whole :=
  Drawn.nested hf hg fun _ _ hws hmore => hws.whole hmore

theorem frame (hf : f.Opening) {inner : Frame} (hg : inner.query.Whole) : (f.frame inner).Whole :=
  Drawn.frame hf hg fun _ _ hws hmore => hws.whole hmore

theorem value (hf : f.Opening) (v : Typed) : (f.value v).Whole :=
  hf.push (show (Sketch.value v).part = .value v from rfl) fun _ _ hws => hws.whole v.whole_words

theorem column (hf : f.Opening) (slot : Slot) (name : String) : (f.column slot name).Whole :=
  hf.push (show (Sketch.column slot name).part = .column slot name from rfl) fun scopes _ hws =>
    hws.whole (scopes.whole_columnWords slot name)

theorem table (hf : f.Opening) (slot : Slot) (t : Table) : (f.table slot t).Whole :=
  hf.push (show (Sketch.table slot t).part = .table slot t from rfl) fun scopes _ hws =>
    hws.whole (scopes.whole_tableWords slot t)

theorem table_text (hf : f.Opening) (slot : Slot) (t : Table) (hs : IsOpener s) :
    ((f.table slot t).text ("(" ++ s)).Opening := by
  rcases hs with ⟨more, hs, hmore⟩
  have htable : (f.table slot t).Drawn fun ws => Word.Opening (ws ++ [.sql "("]) := by
    refine hf.push (show (Sketch.table slot t).part = .table slot t from rfl) ?_
    intro scopes ws hws
    rw [List.append_assoc]
    exact hws.append (scopes.opening_tableWords slot t)
  have hspell : Word.spell (.sql "(" :: more) = "(" ++ s := by
    rw [Word.spell_cons, hs]
    rfl
  refine htable.text hspell fun ws hws => ?_
  have hall := hws.append hmore
  rwa [List.append_assoc] at hall

end Opening

namespace Whole

theorem joiner (hf : f.Whole) (hs : IsJoiner s) : (f.text s).Opening := by
  rcases hs with ⟨more, hs, hmore, hdelimited⟩
  exact Drawn.text hf hs fun ws hws => hws.opening hmore hdelimited

theorem closer (hf : f.Whole) (hs : IsCloser s) : (f.text s).Whole := by
  rcases hs with ⟨more, hs, hmore, hdelimited⟩
  exact Drawn.text hf hs fun ws hws => hws.append hmore hdelimited

end Whole

/-!
## Lists
-/

theorem whole_joined (hf : f.Opening) {items : List Fragment} (hne : items ≠ [])
    (hitems : forall item, item ∈ items -> item.Whole) (hs : IsJoiner s) :
    (f.joined items s).Whole := by
  have hrest : forall (rest : List Fragment) (g : Fragment),
      (forall item, item ∈ rest -> item.Whole) -> g.Whole ->
        (rest.foldl (fun f item => (f.text s).nested item) g).Whole := by
    intro rest
    induction rest with
    | nil => exact fun g _ hg => hg
    | cons item more ih =>
        intro g hmore hg
        rw [List.foldl_cons]
        refine ih _ (fun item hitem => hmore item (List.mem_cons_of_mem _ hitem)) ?_
        exact (hg.joiner hs).nested (hmore item List.mem_cons_self)
  cases items with
  | nil => exact absurd rfl hne
  | cons item rest =>
      have hfirst := hf.nested (hitems item List.mem_cons_self)
      exact hrest rest _ (fun item hitem => hitems item (List.mem_cons_of_mem _ hitem)) hfirst

theorem opening_joined_text (hf : f.Opening) {items : List Fragment}
    (hitems : forall item, item ∈ items -> item.Whole) (hs : IsJoiner s) {after : String}
    (hafter : IsJoiner after) : ((f.joined items s).text after).Opening := by
  cases items with
  | nil => exact hf.text hafter.isOpener
  | cons item rest => exact (whole_joined hf (List.cons_ne_nil _ _) hitems hs).joiner hafter

theorem whole_joined_text (hf : f.Opening) {items : List Fragment}
    (hitems : forall item, item ∈ items -> item.Whole) (hs : IsJoiner s) {after : String}
    (hafter : IsCloser after) : ((f.joined items s).text after).Whole := by
  cases items with
  | nil => exact hf.wholeText hafter.isWholeText
  | cons item rest => exact (whole_joined hf (List.cons_ne_nil _ _) hitems hs).closer hafter

/-!
## Arrows
-/

/-- The fragment ends in an arrow, right behind which its right operand is to stand. -/
def Pointing (asText : Bool) (f : Fragment) : Prop :=
  f.Drawn fun ws => exists left, Word.Whole left ∧ ws = left ++ [.sql (Server.arrowSymbol asText)]

theorem Whole.arrow (hf : f.Whole) (asText : Bool) :
    (f.text (Server.arrowSymbol asText)).Pointing asText :=
  Drawn.text hf (spell_sql _) fun ws hws => ⟨ws, hws, rfl⟩

theorem Whole.closedArrow (hf : f.Whole) : (f.text ")->").Pointing false := by
  have hclose : Word.Whole [.sql ")"] := Word.whole_of_isWhole rfl
  have hspell : Word.spell [.sql ")", .sql "->"] = ")->" := rfl
  refine Drawn.text hf hspell fun ws hws => ⟨ws ++ [.sql ")"], ?_, ?_⟩
  · exact hws.append hclose (Word.delimited_of_isDelimited rfl)
  · rw [List.append_assoc]
    rfl

namespace Pointing

variable {asText : Bool}

theorem nested (hf : f.Pointing asText) (hg : g.Whole) : (f.nested g).Whole := by
  refine Drawn.nested hf hg ?_
  rintro ws more ⟨left, hleft, rfl⟩ hmore
  rw [List.append_assoc]
  exact hleft.arrow asText hmore

theorem value (hf : f.Pointing asText) (v : Typed) : (f.value v).Whole := by
  refine hf.push (show (Sketch.value v).part = .value v from rfl) ?_
  rintro scopes ws ⟨left, hleft, rfl⟩
  rw [List.append_assoc]
  exact hleft.arrow asText v.whole_words

end Pointing

end Fragment
end TypedQuery
