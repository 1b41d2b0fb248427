import TypedQuery.Proofs.Fragment.Sketch

/-!
# Whole words

Words are whole when the lexer cuts them on their own and nothing in them can merge with what
stands before or, if it starts with a delimiter, after them.  An opening is a stretch that leaves
no token open, so that whole words may follow.  Values, types, columns and tables are whole.
-/

namespace TypedQuery

open Server

namespace Word

structure Opening (ws : List Word) : Prop where
  cut : forall conforming, exists tokens, Opens conforming (spell ws).toList tokens
  edge : edgeAfter? .free ws = some .free
  starts : (spell ws).toList = [] ∨ Startable (spell ws).toList

structure Whole (ws : List Word) : Prop where
  cut : forall conforming, exists tokens, Lexes conforming (spell ws).toList tokens
  separate : Separate ws
  starts : Startable (spell ws).toList

/-- The words start with a character that closes every token before them. -/
def Delimited (ws : List Word) : Prop :=
  exists text more c rest, ws = .sql text :: more ∧ text.toList = c :: rest ∧ isDelimiter c = true

/-!
## Putting words together
-/

variable {ws more : List Word}

theorem Delimited.toList_spell (h : Delimited ws) :
    exists c rest, (spell ws).toList = c :: rest ∧ isDelimiter c = true := by
  rcases h with ⟨text, more, c, rest, rfl, htext, hc⟩
  refine ⟨c, rest ++ (spell more).toList, ?_, hc⟩
  rw [spell_cons, spelled_sql, String.toList_append, htext, List.cons_append]

theorem Delimited.append (h : Delimited ws) (more : List Word) : Delimited (ws ++ more) := by
  rcases h with ⟨text, rest, c, cs, rfl, htext, hc⟩
  exact ⟨text, rest ++ more, c, cs, rfl, htext, hc⟩

theorem Delimited.edgeAfter?_eq (h : Delimited ws) (e : Edge) :
    edgeAfter? e ws = edgeAfter? .free ws := by
  rcases h with ⟨text, more, c, rest, rfl, htext, -⟩
  rw [edgeAfter?, edgeAfter?, edge?, edge?, htext]
  rfl

theorem separate_append (hws : Separate ws) (hmore : Separate more) (h : Delimited more) :
    Separate (ws ++ more) := by
  rcases Option.isSome_iff_exists.mp hws with ⟨e, he⟩
  rw [Separate, edgeAfter?_append, he, Option.bind_some, h.edgeAfter?_eq]
  exact hmore

namespace Opening

theorem nil : Opening [] := ⟨fun _ => ⟨[], rfl⟩, rfl, Or.inl rfl⟩

theorem startable_append (h : Opening ws) (hmore : Startable (spell more).toList) :
    Startable (spell (ws ++ more)).toList := by
  rw [spell_append, String.toList_append]
  cases h.starts with
  | inl hnil =>
      rw [hnil]
      exact hmore
  | inr hstarts => exact hstarts.append _

theorem append (h : Opening ws) (hmore : Opening more) : Opening (ws ++ more) := by
  refine ⟨?_, ?_, ?_⟩
  · intro conforming
    rcases h.cut conforming with ⟨tokens, htokens⟩
    rcases hmore.cut conforming with ⟨tokens', htokens'⟩
    refine ⟨tokens ++ tokens', ?_⟩
    rw [spell_append, String.toList_append]
    exact Lexing.feed_of_append htokens htokens'
  · rw [edgeAfter?_append, h.edge, Option.bind_some, hmore.edge]
  · cases hmore.starts with
    | inl hnil =>
        rw [spell_append, String.toList_append, hnil, List.append_nil]
        exact h.starts
    | inr hstarts => exact Or.inr (h.startable_append hstarts)

theorem whole (h : Opening ws) (hmore : Whole more) : Whole (ws ++ more) := by
  refine ⟨?_, ?_, h.startable_append hmore.starts⟩
  · intro conforming
    rcases h.cut conforming with ⟨tokens, htokens⟩
    rcases hmore.cut conforming with ⟨tokens', htokens'⟩
    refine ⟨tokens ++ tokens', ?_⟩
    rw [spell_append, String.toList_append]
    exact Opens.append htokens htokens'
  · rw [Separate, edgeAfter?_append, h.edge, Option.bind_some]
    exact hmore.separate

end Opening

namespace Whole

theorem append (h : Whole ws) (hmore : Whole more) (hdelimited : Delimited more) :
    Whole (ws ++ more) := by
  refine ⟨?_, separate_append h.separate hmore.separate hdelimited, ?_⟩
  · intro conforming
    rcases h.cut conforming with ⟨tokens, htokens⟩
    rcases hmore.cut conforming with ⟨tokens', htokens'⟩
    rcases hdelimited.toList_spell with ⟨c, rest, hhead, hc⟩
    refine ⟨tokens ++ tokens', ?_⟩
    rw [spell_append, String.toList_append]
    exact htokens.append hhead hc htokens'
  · rw [spell_append, String.toList_append]
    exact h.starts.append _

theorem opening (h : Whole ws) (hmore : Opening more) (hdelimited : Delimited more) :
    Opening (ws ++ more) := by
  rcases Option.isSome_iff_exists.mp h.separate with ⟨e, he⟩
  refine ⟨?_, ?_, ?_⟩
  · intro conforming
    rcases h.cut conforming with ⟨tokens, htokens⟩
    rcases hmore.cut conforming with ⟨tokens', htokens'⟩
    rcases hdelimited.toList_spell with ⟨c, rest, hhead, hc⟩
    refine ⟨tokens ++ tokens', ?_⟩
    rw [spell_append, String.toList_append]
    exact htokens.append_opens hhead hc htokens'
  · rw [edgeAfter?_append, he, Option.bind_some, hdelimited.edgeAfter?_eq, hmore.edge]
  · rw [spell_append, String.toList_append]
    exact Or.inr (h.starts.append _)

theorem arrow (h : Whole ws) (asText : Bool) (hmore : Whole more) :
    Whole (ws ++ .sql (arrowSymbol asText) :: more) := by
  rcases Option.isSome_iff_exists.mp h.separate with ⟨e, he⟩
  refine ⟨?_, ?_, ?_⟩
  · intro conforming
    rcases h.cut conforming with ⟨tokens, htokens⟩
    rcases hmore.cut conforming with ⟨tokens', htokens'⟩
    refine ⟨tokens ++ .operator (arrowSymbol asText) :: tokens', ?_⟩
    rw [spell_append, String.toList_append, spell_cons, String.toList_append]
    exact htokens.arrow asText hmore.starts htokens'
  · have hfree : edge? e (.sql (arrowSymbol asText)) = some .free := by
      cases asText <;> rfl
    rw [Separate, edgeAfter?_append, he, Option.bind_some, edgeAfter?, hfree, Option.bind_some]
    exact hmore.separate
  · rw [spell_append, String.toList_append]
    exact h.starts.append _

theorem joined {separator : String} (hseparator : Opening [.sql separator])
    (hdelimited : Delimited [.sql separator]) {items : List (List Word)} (hne : items ≠ [])
    (h : forall ws, ws ∈ items -> Whole ws) : Whole (Word.joined separator items) := by
  induction items with
  | nil => exact absurd rfl hne
  | cons ws rest ih =>
      have hws := h ws List.mem_cons_self
      cases rest with
      | nil => exact hws
      | cons next more =>
          have hrest := ih (List.cons_ne_nil next more) fun ws hws =>
            h ws (List.mem_cons_of_mem _ hws)
          have hopening := hws.opening hseparator hdelimited
          have hall := hopening.whole hrest
          rw [List.append_assoc] at hall
          exact hall

end Whole

/-!
## Fixed words
-/

def startsFree : List Char -> Bool
  | [] => false
  | c :: _ => !isOperatorChar c

theorem startable_of_startsFree {text : List Char} (h : startsFree text = true) :
    Startable text := by
  cases text with
  | nil => cases h
  | cons c rest => exact Or.inl (Bool.not_eq_true' _ ▸ h)

def isClosable : Lexing -> Bool
  | .start => true
  | .word _ => true
  | .quotedEnd _ => true
  | .stringEnd _ _ => true
  | .number _ => true
  | _ => false

theorem exists_closes {conforming : Bool} {q : Lexing} (h : isClosable q = true) :
    exists tokens, q.Closes conforming tokens := by
  cases q with
  | start => exact ⟨_, closes_start conforming⟩
  | word acc => exact ⟨_, closes_word conforming acc⟩
  | quotedEnd acc => exact ⟨_, closes_quotedEnd conforming acc⟩
  | stringEnd escapes acc => exact ⟨_, closes_stringEnd conforming escapes acc⟩
  | number acc => exact ⟨_, closes_number conforming acc⟩
  | _ => cases h

def endsIn (ends : Lexing -> Bool) (conforming : Bool) (text : List Char) : Bool :=
  match Lexing.start.feed conforming text with
  | some (_, q) => ends q
  | none => false

theorem exists_feed {ends : Lexing -> Bool} {conforming : Bool} {text : List Char}
    (h : endsIn ends conforming text = true) :
    exists tokens q, Lexing.start.feed conforming text = some (tokens, q) ∧ ends q = true := by
  unfold endsIn at h
  split at h
  · rename_i tokens q hfeed
    exact ⟨tokens, q, hfeed, h⟩
  · cases h

def isOpening (ws : List Word) : Bool :=
  [true, false].all (endsIn (· == .start) · (spell ws).toList) &&
    edgeAfter? .free ws == some .free && startsFree (spell ws).toList

def isWhole (ws : List Word) : Bool :=
  [true, false].all (endsIn isClosable · (spell ws).toList) &&
    (edgeAfter? .free ws).isSome && startsFree (spell ws).toList

def isDelimited : List Word -> Bool
  | .sql text :: _ => text.toList.head?.any isDelimiter
  | _ => false

theorem opening_of_isOpening (h : isOpening ws = true) : Opening ws := by
  simp only [isOpening, List.all_cons, List.all_nil, Bool.and_true, Bool.and_eq_true,
    beq_iff_eq] at h
  rcases h with ⟨⟨⟨htrue, hfalse⟩, hedge⟩, hstarts⟩
  refine ⟨?_, hedge, Or.inr (startable_of_startsFree hstarts)⟩
  intro conforming
  have hends : endsIn (· == .start) conforming (spell ws).toList = true := by
    cases conforming with
    | true => exact htrue
    | false => exact hfalse
  rcases exists_feed hends with ⟨tokens, q, hfeed, hq⟩
  rw [beq_iff_eq.mp hq] at hfeed
  exact ⟨tokens, hfeed⟩

theorem whole_of_isWhole (h : isWhole ws = true) : Whole ws := by
  simp only [isWhole, List.all_cons, List.all_nil, Bool.and_true, Bool.and_eq_true] at h
  rcases h with ⟨⟨⟨htrue, hfalse⟩, hseparate⟩, hstarts⟩
  refine ⟨?_, hseparate, startable_of_startsFree hstarts⟩
  intro conforming
  have hends : endsIn isClosable conforming (spell ws).toList = true := by
    cases conforming with
    | true => exact htrue
    | false => exact hfalse
  rcases exists_feed hends with ⟨tokens, q, hfeed, hq⟩
  rcases exists_closes hq with ⟨last, hlast⟩
  exact ⟨tokens ++ last, tokens, q, last, hfeed, hlast, rfl⟩

theorem delimited_of_isDelimited (h : isDelimited ws = true) : Delimited ws := by
  cases ws with
  | nil => cases h
  | cons w more =>
      cases w with
      | sql text =>
          cases htext : text.toList with
          | nil =>
              rw [isDelimited, htext] at h
              cases h
          | cons c rest =>
              rw [isDelimited, htext] at h
              exact ⟨text, more, c, rest, rfl, htext, h⟩
      | ident name => cases h
      | constant text => cases h

/-!
## Names
-/

theorem isQuote_eq_false {c : Char} (h : (c.isLower || c.isDigit || c == '_') = true) :
    isQuote c = false := by
  cases hquote : isQuote c with
  | false => rfl
  | true =>
      simp only [isQuote, Bool.or_eq_true, beq_iff_eq] at hquote
      rcases hquote with rfl | rfl <;> exact absurd h (by decide)

theorem isUnquoted_of_isPlainAlias {name : String} (h : isPlainAlias name = true) :
    isUnquoted name.toList = true := by
  unfold isPlainAlias at h
  unfold isUnquoted
  cases hname : name.toList with
  | nil => rfl
  | cons c rest =>
      rw [hname] at h
      simp only [Bool.and_eq_true, Bool.or_eq_true, List.all_eq_true] at h
      rw [List.all_eq_true]
      intro d hd
      rw [Bool.not_eq_true']
      apply isQuote_eq_false
      cases hd with
      | head =>
          rcases h.1 with hlower | hline
          · rw [hlower]
            rfl
          · rw [hline, Bool.or_true]
      | tail _ hd => simpa [Bool.or_eq_true] using h.2 d hd

theorem whole_ident (name : String) : Whole [.ident name] := by
  refine ⟨?_, rfl, ?_⟩
  · intro conforming
    rw [spell_cons, spell_nil, String.append_empty]
    exact ⟨_, lexes_quoteIdent name⟩
  · rw [spell_cons, spell_nil, String.append_empty]
    exact startable_quoteIdent name

theorem whole_ofAlias (name : String) : Whole [.ofAlias name] := by
  unfold ofAlias
  split
  · rename_i hplain
    refine ⟨?_, ?_, ?_⟩
    · intro conforming
      rw [spell_cons, spell_nil, String.append_empty]
      exact ⟨_, [], _, _, feed_plain hplain, closes_word conforming _, rfl⟩
    · rw [Separate, edgeAfter?, edge?, isUnquoted_of_isPlainAlias hplain]
      rfl
    · rw [spell_cons, spell_nil, String.append_empty]
      exact startable_plain hplain
  · exact whole_ident name

def IsNameMark (mark : String) : Prop := mark = "." ∨ mark = "("

theorem opening_ident_mark {mark : String} (h : IsNameMark mark) (name : String) :
    Opening [.ident name, .sql mark] := by
  refine ⟨?_, ?_, Or.inr ?_⟩
  · intro conforming
    have hmark : exists tokens, (Lexing.quotedEnd name.toList).feed conforming mark.toList =
        some (tokens, .start) := by
      rcases h with rfl | rfl <;> exact ⟨_, rfl⟩
    rcases hmark with ⟨tokens, hmark⟩
    have hfeed := Lexing.feed_of_append (feed_quoteIdent name) hmark
    exact ⟨_, by simpa [Opens] using hfeed⟩
  · rcases h with rfl | rfl <;> rfl
  · rw [spell_cons, String.toList_append]
    exact (startable_quoteIdent name).append _

theorem opening_plain_mark {mark : String} (h : IsNameMark mark) {name : String}
    (hplain : isPlainAlias name = true) : Opening [.sql name, .sql mark] := by
  refine ⟨?_, ?_, Or.inr ?_⟩
  · intro conforming
    rcases h with rfl | rfl
    · exact ⟨_, by simpa using opens_plain hplain (Or.inl rfl)⟩
    · exact ⟨_, by simpa using opens_plain hplain (Or.inr rfl)⟩
  · rw [edgeAfter?, edge?, isUnquoted_of_isPlainAlias hplain]
    rcases h with rfl | rfl <;> rfl
  · rw [spell_cons, String.toList_append]
    exact (startable_plain hplain).append _

theorem opening_ofAlias_mark {mark : String} (h : IsNameMark mark) (name : String) :
    Opening [.ofAlias name, .sql mark] := by
  unfold ofAlias
  split
  · rename_i hplain
    exact opening_plain_mark h hplain
  · exact opening_ident_mark h name

theorem whole_qualified (schema : Option String) (name : String) :
    Whole (qualified schema name) := by
  cases schema with
  | none => exact whole_ident name
  | some schema => exact (opening_ident_mark (Or.inl rfl) schema).whole (whole_ident name)

end Word

/-!
## Types and values
-/

theorem SqlType.whole_words (t : SqlType) : Word.Whole t.words := by
  induction t with
  | enum e => exact Word.whole_qualified e.schema e.name
  | array item ih =>
      exact ih.append (Word.whole_of_isWhole rfl) (Word.delimited_of_isDelimited rfl)
  | json shape =>
      have hname : Word.Whole [.sql "jsonb"] := Word.whole_of_isWhole rfl
      simpa [words, cast] using hname
  | _ => exact Word.whole_of_isWhole rfl

namespace Word

theorem whole_constant (text : String) : Whole [.constant text] := by
  have hatom := @atomText_quoteLiteral true (fun _ => none) text
  refine ⟨?_, rfl, ?_⟩
  · intro conforming
    rw [spell_cons, spell_nil, String.append_empty]
    exact ⟨_, lexes_quoteLiteral text⟩
  · rw [spell_cons, spell_nil, String.append_empty]
    exact hatom.1

theorem isUnquoted_digits (n : Nat) : isUnquoted (Nat.toDigits 10 n) = true := by
  rw [isUnquoted, List.all_eq_true]
  intro c hc
  rw [Bool.not_eq_true']
  apply isQuote_eq_false
  rw [Nat.isDigit_of_mem_toDigits (by decide) (by decide) hc, Bool.or_true]
  rfl

theorem whole_integer (n : Int) : Whole [.sql (toString n)] := by
  have hunquoted : isUnquoted (toString n).toList = true := by
    cases n with
    | ofNat n =>
        rw [show toString (Int.ofNat n) = toString n from rfl, Number.toList_toString]
        exact isUnquoted_digits n
    | negSucc n =>
        rw [show toString (Int.negSucc n) = "-" ++ toString (n + 1) from rfl,
          String.toList_append, Number.toList_toString]
        exact isUnquoted_digits (n + 1)
  refine ⟨?_, ?_, ?_⟩
  · intro conforming
    rcases @operandText_integer conforming (fun _ => none) n with ⟨-, tokens, htokens, -⟩
    exact ⟨tokens, by simpa using htokens⟩
  · rw [Separate, edgeAfter?, edge?, hunquoted]
    rfl
  · rw [spell_cons, spell_nil, String.append_empty]
    exact (@operandText_integer true (fun _ => none) n).1

end Word

namespace Value

mutual

theorem whole_words (v : Value) : Word.Whole v.words := by
  cases v with
  | null => exact Word.whole_of_isWhole rfl
  | bool b => cases b <;> exact Word.whole_of_isWhole rfl
  | int n => exact Word.whole_integer n.toInt
  | bigint n => exact Word.whole_integer n.toInt
  | array items =>
      have hitems := whole_itemWords items
      cases items with
      | nil => exact Word.whole_constant _
      | cons item rest =>
          have hopen : Word.Opening [.sql "ARRAY["] := Word.opening_of_isOpening rfl
          have hcomma : Word.Opening [.sql ","] := Word.opening_of_isOpening rfl
          have hclose : Word.Whole [.sql "]"] := Word.whole_of_isWhole rfl
          have hjoined := Word.Whole.joined hcomma (Word.delimited_of_isDelimited rfl)
            (by simp [itemWords]) hitems
          rw [words]
          exact hopen.whole (hjoined.append hclose (Word.delimited_of_isDelimited rfl))
  | _ => exact Word.whole_constant _

theorem whole_itemWords (items : List Value) :
    forall ws, ws ∈ itemWords items -> Word.Whole ws := by
  intro ws hws
  cases items with
  | nil => cases hws
  | cons item rest =>
      rw [itemWords] at hws
      cases hws with
      | head => exact whole_words item
      | tail _ hws => exact whole_itemWords rest ws hws

end

end Value

theorem Typed.whole_words (v : Typed) : Word.Whole v.words := by
  have hcast : forall type : SqlType, Word.Whole (.sql "::" :: type.words) := by
    intro type
    have hcolons : Word.Opening [.sql "::"] := Word.opening_of_isOpening rfl
    exact hcolons.whole type.whole_words
  unfold words castWords
  split
  · split
    · exact v.value.whole_words.append (hcast _) (Word.delimited_of_isDelimited rfl)
    · rw [List.append_nil]
      exact v.value.whole_words
  · rw [List.append_nil]
    exact v.value.whole_words

/-!
## Columns and tables
-/

namespace Scopes

theorem whole_columnWords (scopes : Scopes) (slot : Slot) (name : String) :
    Word.Whole (scopes.columnWords slot name) := by
  unfold columnWords
  split
  · exact (Word.opening_ofAlias_mark (Or.inl rfl) _).whole (Word.whole_ident name)
  · exact Word.whole_ident name

theorem whole_tableWords (scopes : Scopes) (slot : Slot) (t : Table) :
    Word.Whole (scopes.tableWords slot t) := by
  have hname := Word.whole_qualified t.schema t.name
  unfold tableWords
  split
  · rename_i name _
    have hspace : Word.Opening [.sql " "] := Word.opening_of_isOpening rfl
    exact hname.append (hspace.whole (Word.whole_ofAlias name))
      (Word.delimited_of_isDelimited rfl)
  · rw [List.append_nil]
    exact hname

theorem opening_tableWords (scopes : Scopes) (slot : Slot) (t : Table) :
    Word.Opening (scopes.tableWords slot t ++ [.sql "("]) := by
  have hname : Word.Opening (Word.qualified t.schema t.name ++ [.sql "("]) := by
    have hlast := Word.opening_ident_mark (Or.inr rfl) t.name
    unfold Word.qualified
    split
    · exact (Word.opening_ident_mark (Or.inl rfl) _).append hlast
    · exact hlast
  unfold tableWords
  split
  · rename_i name _
    have hspace : Word.Opening [.sql " "] := Word.opening_of_isOpening rfl
    have halias := hspace.append (Word.opening_ofAlias_mark (Or.inr rfl) name)
    rw [List.append_assoc]
    exact (Word.whole_qualified t.schema t.name).opening halias
      (Word.delimited_of_isDelimited rfl)
  · rw [List.append_nil]
    exact hname

end Scopes
end TypedQuery
