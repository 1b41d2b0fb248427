import TypedQuery.Fragment.Render
import TypedQuery.Proofs.Server.Lexer

/-!
# How names, values and types are spelled

What the writers put down for a name, a text, a number, a placeholder, a qualifier and a type is
cut by the lexer into the tokens of that very thing, with and without conforming strings.
-/

namespace TypedQuery
namespace Server

variable {conforming : Bool}

/-!
## Quoted names and texts
-/

theorem feed_quoted_doubled (acc name : List Char) :
    (Lexing.quoted acc).feed conforming (Text.doubled '"' name) =
      some ([], .quoted (acc ++ name)) := by
  induction name generalizing acc with
  | nil => simp [Text.doubled, Lexing.feed]
  | cons c rest ih =>
      by_cases hc : c = '"'
      · subst hc
        simp [Text.doubled, Lexing.feed, Lexing.step, ih]
      · simp [Text.doubled, hc, Lexing.feed, Lexing.step, ih]

theorem feed_quoteIdent (name : String) :
    Lexing.start.feed conforming (Text.quoteIdent name).toList =
      some ([], .quotedEnd name.toList) := by
  have hopen : Lexing.start.feed conforming ['"'] = some ([], .quoted []) := rfl
  have hclose : (Lexing.quoted name.toList).feed conforming ['"'] =
      some ([], .quotedEnd name.toList) := by
    simp [Lexing.feed, Lexing.step]
  have hinner : (Lexing.quoted []).feed conforming (Text.doubled '"' name.toList) =
      some ([], .quoted name.toList) := feed_quoted_doubled [] name.toList
  have h := Lexing.feed_of_append (Lexing.feed_of_append hopen hinner) hclose
  simpa [Text.quoteIdent] using h

theorem quoteIdent_injective : Function.Injective Text.quoteIdent := by
  intro name other h
  have hread := @feed_quoteIdent true name
  rw [h, feed_quoteIdent other] at hread
  injection hread with hread
  injection hread with _ hread
  injection hread with hread
  exact (String.toList_injective hread).symm

theorem lexes_quoteIdent (name : String) :
    Lexes conforming (Text.quoteIdent name).toList [.quoted name] := by
  refine ⟨[], .quotedEnd name.toList, [.quoted name], feed_quoteIdent name, ?_, rfl⟩
  have h := closes_quotedEnd conforming name.toList
  rwa [String.ofList_toList] at h

theorem opens_quoteIdent_dot (name : String) :
    Opens conforming ((Text.quoteIdent name).toList ++ ['.']) [.quoted name, .mark '.'] := by
  have hdot : (Lexing.quotedEnd name.toList).feed conforming ['.'] =
      some ([.quoted (String.ofList name.toList), .mark '.'], .start) := rfl
  rw [String.ofList_toList] at hdot
  exact Lexing.feed_of_append (feed_quoteIdent name) hdot

theorem lexes_qualifiedIdent (schema name : String) :
    Lexes conforming (Text.qualifiedIdent (some schema) name).toList
      [.quoted schema, .mark '.', .quoted name] := by
  have h : Lexes conforming ((Text.quoteIdent schema).toList ++ ['.'] ++
      (Text.quoteIdent name).toList) [.quoted schema, .mark '.', .quoted name] :=
    (opens_quoteIdent_dot schema).append (lexes_quoteIdent name)
  simpa [Text.qualifiedIdent] using h

theorem feed_string_doubled (escapes : Bool) (acc : List Char) {text : List Char}
    (h : '\\' ∉ text) :
    (Lexing.string escapes acc).feed conforming (Text.doubled '\'' text) =
      some ([], .string escapes (acc ++ text)) := by
  induction text generalizing acc with
  | nil => simp [Text.doubled, Lexing.feed]
  | cons c rest ih =>
      rw [List.mem_cons, not_or] at h
      have hslash : c ≠ '\\' := fun heq => h.1 heq.symm
      by_cases hc : c = '\''
      · subst hc
        simp [Text.doubled, Lexing.feed, Lexing.step, ih _ h.2]
      · simp [Text.doubled, hc, hslash, Lexing.feed, Lexing.step, ih _ h.2]

theorem feed_escape_doubled (acc text : List Char) :
    (Lexing.string true acc).feed conforming (Text.doubled '\\' (Text.doubled '\'' text)) =
      some ([], .string true (acc ++ text)) := by
  induction text generalizing acc with
  | nil => simp [Text.doubled, Lexing.feed]
  | cons c rest ih =>
      by_cases hc : c = '\''
      · subst hc
        simp [Text.doubled, Lexing.feed, Lexing.step, ih]
      · by_cases hslash : c = '\\'
        · subst hslash
          simp [Text.doubled, Lexing.feed, Lexing.step, escaped?, Char.isDigit, ih]
        · simp [Text.doubled, hc, hslash, Lexing.feed, Lexing.step, ih]

theorem mem_doubled {quote c : Char} {text : List Char} :
    c ∈ Text.doubled quote text <-> c ∈ text := by
  induction text with
  | nil => rfl
  | cons d rest ih =>
      by_cases hd : d = quote
      · subst hd
        simp [Text.doubled, ih]
      · simp [Text.doubled, hd, ih]

theorem feed_quoteLiteral (text : String) :
    exists escapes, Lexing.start.feed conforming (Text.quoteLiteral text).toList =
      some ([], .stringEnd escapes text.toList) := by
  unfold Text.quoteLiteral
  by_cases hslash : '\\' ∈ Text.doubled '\'' text.toList
  · rw [if_pos hslash]
    have hopen : Lexing.start.feed conforming ['E', '\''] = some ([], .string true []) := rfl
    have hclose : (Lexing.string true text.toList).feed conforming ['\''] =
        some ([], .stringEnd true text.toList) := by
      simp [Lexing.feed, Lexing.step]
    have hinner : (Lexing.string true []).feed conforming
        (Text.doubled '\\' (Text.doubled '\'' text.toList)) =
        some ([], .string true text.toList) := feed_escape_doubled [] text.toList
    have h := Lexing.feed_of_append (Lexing.feed_of_append hopen hinner) hclose
    exact ⟨true, by simpa using h⟩
  · rw [if_neg hslash]
    rw [mem_doubled] at hslash
    have hopen : Lexing.start.feed conforming ['\''] = some ([], .string (!conforming) []) := rfl
    have hclose : (Lexing.string (!conforming) text.toList).feed conforming ['\''] =
        some ([], .stringEnd (!conforming) text.toList) := by
      simp [Lexing.feed, Lexing.step]
    have hinner : (Lexing.string (!conforming) []).feed conforming
        (Text.doubled '\'' text.toList) = some ([], .string (!conforming) text.toList) :=
      feed_string_doubled (!conforming) [] hslash
    have h := Lexing.feed_of_append (Lexing.feed_of_append hopen hinner) hclose
    exact ⟨!conforming, by simpa using h⟩

theorem lexes_quoteLiteral (text : String) :
    Lexes conforming (Text.quoteLiteral text).toList [.string text] := by
  rcases @feed_quoteLiteral conforming text with ⟨escapes, hfeed⟩
  refine ⟨[], .stringEnd escapes text.toList, [.string text], hfeed, ?_, rfl⟩
  have h := closes_stringEnd conforming escapes text.toList
  rwa [String.ofList_toList] at h

/-!
## Numbers and placeholders
-/

theorem isLower_iff_toNat {c : Char} : c.isLower = true <-> 97 ≤ c.toNat ∧ c.toNat ≤ 122 := by
  have hrange : c.isLower = (decide (c.val ≥ 'a'.val) && decide (c.val ≤ 'z'.val)) := rfl
  rw [hrange, Bool.and_eq_true, decide_eq_true_eq, decide_eq_true_eq, ge_iff_le,
    UInt32.le_iff_toNat_le, UInt32.le_iff_toNat_le]
  exact Iff.rfl

theorem isUpper_iff_toNat {c : Char} : c.isUpper = true <-> 65 ≤ c.toNat ∧ c.toNat ≤ 90 := by
  have hrange : c.isUpper = decide (c.val ≥ 'A'.val ∧ c.val ≤ 'Z'.val) := rfl
  rw [hrange, decide_eq_true_eq, ge_iff_le, UInt32.le_iff_toNat_le, UInt32.le_iff_toNat_le]
  exact Iff.rfl

theorem isAlpha_eq (c : Char) : c.isAlpha = (c.isUpper || c.isLower) := rfl

theorem isWordStart_eq_false_of_isDigit {c : Char} (h : c.isDigit = true) :
    isWordStart c = false := by
  rw [Char.isDigit_iff_toNat] at h
  have hzero : '0'.toNat = 48 := rfl
  have hnine : '9'.toNat = 57 := rfl
  have hline : c ≠ '_' := by
    rintro rfl
    exact absurd h.2 (by decide)
  have halpha : c.isAlpha = false := by
    rw [isAlpha_eq, Bool.or_eq_false_iff, <- Bool.not_eq_true, <- Bool.not_eq_true,
      isUpper_iff_toNat, isLower_iff_toNat]
    omega
  simp only [isWordStart, halpha, Bool.false_or, Bool.or_eq_false_iff, beq_eq_false_iff_ne,
    decide_eq_false_iff_not]
  exact ⟨hline, by omega⟩

theorem enter_digit {c : Char} (h : c.isDigit = true) :
    Lexing.enter conforming c = some ([], .number [c]) := by
  have hspace : isSpace c = false := by
    cases hs : isSpace c with
    | false => rfl
    | true =>
        simp only [isSpace, Char.isWhitespace, Bool.or_eq_true, beq_iff_eq,
          decide_eq_true_eq] at hs
        rcases hs with ((((rfl | rfl) | rfl) | rfl) | rfl) | rfl <;> exact absurd h (by decide)
  rw [Lexing.enter, hspace, isWordStart_eq_false_of_isDigit h, h]
  rfl

theorem feed_number (acc : List Char) {digits : List Char}
    (h : forall c, c ∈ digits -> c.isDigit = true) :
    (Lexing.number acc).feed conforming digits = some ([], .number (acc ++ digits)) := by
  induction digits generalizing acc with
  | nil => simp [Lexing.feed]
  | cons c rest ih =>
      have hc := h c List.mem_cons_self
      have hrest := ih (acc ++ [c]) fun d hd => h d (List.mem_cons_of_mem c hd)
      simp [Lexing.feed, Lexing.step, hc, hrest]

theorem feed_parameter (acc : List Char) {digits : List Char}
    (h : forall c, c ∈ digits -> c.isDigit = true) :
    (Lexing.parameter acc).feed conforming digits = some ([], .parameter (acc ++ digits)) := by
  induction digits generalizing acc with
  | nil => simp [Lexing.feed]
  | cons c rest ih =>
      have hc := h c List.mem_cons_self
      have hrest := ih (acc ++ [c]) fun d hd => h d (List.mem_cons_of_mem c hd)
      simp [Lexing.feed, Lexing.step, hc, hrest]

theorem digits_eq_cons (n : Nat) :
    exists c rest, Nat.toDigits 10 n = c :: rest ∧ c.isDigit = true ∧
      forall d, d ∈ rest -> d.isDigit = true := by
  have hdigits : forall d, d ∈ Nat.toDigits 10 n -> d.isDigit = true := by
    intro d hd
    exact Nat.isDigit_of_mem_toDigits (by decide) (by decide) hd
  cases hn : Nat.toDigits 10 n with
  | nil => exact absurd hn Nat.toDigits_ne_nil
  | cons c rest =>
      rw [hn] at hdigits
      exact ⟨c, rest, rfl, hdigits c List.mem_cons_self,
        fun d hd => hdigits d (List.mem_cons_of_mem c hd)⟩

theorem lexes_digits (n : Nat) : Lexes conforming (Nat.toDigits 10 n) [.number n] := by
  rcases digits_eq_cons n with ⟨c, rest, hn, hc, hrest⟩
  have hfirst : Lexing.start.feed conforming [c] = some ([], .number [c]) := by
    simp [Lexing.feed, Lexing.step, enter_digit hc]
  refine ⟨[], .number (c :: rest), [.number n], ?_, ?_, rfl⟩
  · have h := Lexing.feed_of_append hfirst (feed_number [c] hrest)
    rw [hn]
    simpa using h
  · have h := closes_number conforming (c :: rest)
    rwa [<- hn, Nat.ofDigitChars_ten_toDigits, hn] at h

theorem lexes_dollar (n : Nat) :
    Lexes conforming (Placeholder.dollar.written n).toList [.parameter n] := by
  rcases digits_eq_cons n with ⟨c, rest, hn, hc, hrest⟩
  have hfirst : Lexing.start.feed conforming ['$', c] = some ([], .parameter [c]) := by
    have hsign : Lexing.enter conforming '$' = some ([], .dollar) := rfl
    simp [Lexing.feed, Lexing.step, hsign, hc]
  refine ⟨[], .parameter (c :: rest), [.parameter n], ?_, ?_, rfl⟩
  · have h := Lexing.feed_of_append hfirst (feed_parameter [c] hrest)
    simpa [Placeholder.written, Number.toList_toString, hn] using h
  · have h := closes_parameter conforming (c :: rest)
    rwa [<- hn, Nat.ofDigitChars_ten_toDigits, hn] at h

/-!
## Text after an arrow

An arrow is written right before its right operand.  Its token ends there when the operand starts
with no operator character; the sign of a number is one, but is cut off again.
-/

/-- Text that an operand may start with: no operator character, unless it is a sign before a
digit. -/
def Startable : List Char -> Prop
  | [] => False
  | c :: rest =>
      isOperatorChar c = false ∨
        (c = '-' ∧ exists d more, rest = d :: more ∧ d.isDigit = true)

theorem Startable.append {first : List Char} (h : Startable first) (second : List Char) :
    Startable (first ++ second) := by
  cases first with
  | nil => exact h.elim
  | cons c rest =>
      cases h with
      | inl hc => exact Or.inl hc
      | inr hsign =>
          rcases hsign with ⟨hc, d, more, rfl, hd⟩
          exact Or.inr ⟨hc, d, more ++ second, rfl, hd⟩

theorem isOperatorChar_eq_false_of_isDigit {c : Char} (h : c.isDigit = true) :
    isOperatorChar c = false := by
  cases hop : isOperatorChar c with
  | false => rfl
  | true =>
      simp only [isOperatorChar, List.contains_cons, List.contains_nil, Bool.or_false,
        Bool.or_eq_true, beq_iff_eq] at hop
      rcases hop with rfl | rfl | rfl | rfl | rfl | rfl | rfl | rfl | rfl | rfl | rfl | rfl |
        rfl | rfl | rfl | rfl | rfl <;> exact absurd h (by decide)

theorem step_sign_digit (before : List Char) {c : Char} (hc : c.isDigit = true) :
    (Lexing.operator before).step conforming c =
      (Lexing.operator before).closed?.map fun tokens => (tokens, .number [c]) := by
  rw [Lexing.step, isOperatorChar_eq_false_of_isDigit hc, Lexing.leave, enter_digit hc]
  cases (Lexing.operator before).closed? <;> simp

theorem lexes_minus_digits (n : Nat) :
    Lexes conforming ('-' :: Nat.toDigits 10 n) [.operator "-", .number n] := by
  rcases digits_eq_cons n with ⟨c, rest, hn, hc, hrest⟩
  have hfirst : Lexing.start.feed conforming ['-', c] =
      some ([.operator "-"], .number [c]) := by
    have hminus : Lexing.start.step conforming '-' = some ([], .operator ['-']) := rfl
    have hclosed : (Lexing.operator ['-']).closed? = some [.operator "-"] := rfl
    simp [Lexing.feed, hminus, step_sign_digit _ hc, hclosed]
  refine ⟨[.operator "-"], .number (c :: rest), [.number n], ?_, ?_, rfl⟩
  · have h := Lexing.feed_of_append hfirst (feed_number [c] hrest)
    rw [hn]
    simpa using h
  · have h := closes_number conforming (c :: rest)
    rwa [<- hn, Nat.ofDigitChars_ten_toDigits, hn] at h

theorem startable_digits (n : Nat) : Startable (Nat.toDigits 10 n) := by
  rcases digits_eq_cons n with ⟨c, rest, hn, hc, -⟩
  rw [hn]
  exact Or.inl (isOperatorChar_eq_false_of_isDigit hc)

theorem startable_minus_digits (n : Nat) : Startable ('-' :: Nat.toDigits 10 n) := by
  rcases digits_eq_cons n with ⟨c, rest, hn, hc, -⟩
  rw [hn]
  exact Or.inr ⟨rfl, c, rest, rfl, hc⟩

def arrowSymbol (asText : Bool) : String := if asText then "->>" else "->"

theorem feed_arrow (asText : Bool) {text : List Char} (h : Startable text) :
    (Lexing.operator (arrowSymbol asText).toList).feed conforming text =
      (Lexing.start.feed conforming text).map fun (more, last) =>
        (.operator (arrowSymbol asText) :: more, last) := by
  cases text with
  | nil => exact h.elim
  | cons c rest =>
      cases h with
      | inl hc =>
          have hclosed : (Lexing.operator (arrowSymbol asText).toList).closed? =
              some [.operator (arrowSymbol asText)] := by
            cases asText <;> rfl
          have hleave : (Lexing.operator (arrowSymbol asText).toList).step conforming c =
              (Lexing.enter conforming c).map fun (more, next) =>
                (.operator (arrowSymbol asText) :: more, next) := by
            rw [Lexing.step, hc, Lexing.leave, hclosed]
            rfl
          rw [Lexing.feed, Lexing.feed, hleave]
          rw [show Lexing.start.step conforming c = Lexing.enter conforming c from rfl]
          cases Lexing.enter conforming c with
          | none => rfl
          | some reached =>
              rcases reached with ⟨tokens, next⟩
              cases hrest : next.feed conforming rest <;> simp [hrest]
      | inr hsign =>
          rcases hsign with ⟨rfl, d, more, rfl, hd⟩
          have hstart : Lexing.start.step conforming '-' = some ([], .operator ['-']) := rfl
          have hminus : (Lexing.operator ['-']).closed? = some [.operator "-"] := rfl
          have harrow : (Lexing.operator (arrowSymbol asText).toList).step conforming '-' =
              some ([], .operator ((arrowSymbol asText).toList ++ ['-'])) := rfl
          have hclosed : (Lexing.operator ((arrowSymbol asText).toList ++ ['-'])).closed? =
              some [.operator (arrowSymbol asText), .operator "-"] := by
            cases asText <;> rfl
          simp only [Lexing.feed, hstart, harrow, step_sign_digit _ hd, hminus, hclosed,
            Option.bind_some, Option.map_some]
          cases (Lexing.number [d]).feed conforming more <;> simp

theorem Lexes.arrow {left right : List Char} {leftTokens rightTokens : List Token}
    (hleft : Lexes conforming left leftTokens) (asText : Bool) (hstart : Startable right)
    (hright : Lexes conforming right rightTokens) :
    Lexes conforming (left ++ ((arrowSymbol asText).toList ++ right))
      (leftTokens ++ .operator (arrowSymbol asText) :: rightTokens) := by
  rcases hleft with ⟨done, q, last, hfeed, hcloses, rfl⟩
  rcases hright with ⟨done', q', last', hfeed', hcloses', rfl⟩
  have hmiddle : q.feed conforming (arrowSymbol asText).toList =
      some (last, .operator (arrowSymbol asText).toList) := by
    rw [<- List.append_nil last]
    cases asText with
    | false =>
        have h : Lexing.start.feed conforming ['-', '>'] = some ([], .operator ['-', '>']) := rfl
        exact hcloses.feed rfl h
    | true =>
        have h : Lexing.start.feed conforming ['-', '>', '>'] =
            some ([], .operator ['-', '>', '>']) := rfl
        exact hcloses.feed rfl h
  have hend : (Lexing.operator (arrowSymbol asText).toList).feed conforming right =
      some (.operator (arrowSymbol asText) :: done', q') := by
    rw [feed_arrow asText hstart, hfeed']
    rfl
  refine ⟨_, q', last', Lexing.feed_of_append hfeed (Lexing.feed_of_append hmiddle hend),
    hcloses', ?_⟩
  simp

/-!
## Qualifiers
-/

def aliasToken (name : String) : Token :=
  if isPlainAlias name then .word name else .quoted name

theorem toLower_of_toNat {c : Char} (h : c.toNat < 65 ∨ 90 < c.toNat) : c.toLower = c := by
  have hval : c.toNat = c.val.toNat := rfl
  have hA : 'A'.val.toNat = 65 := rfl
  have hZ : 'Z'.val.toNat = 90 := rfl
  have hnot : ¬ (c.val ≥ 'A'.val ∧ c.val ≤ 'Z'.val) := by
    rw [ge_iff_le, UInt32.le_iff_toNat_le, UInt32.le_iff_toNat_le]
    omega
  exact dif_neg hnot

theorem enter_plain {c : Char} (h : (c.isLower || c == '_') = true) :
    Lexing.enter conforming c = some ([], .word [c]) := by
  rw [Bool.or_eq_true, beq_iff_eq] at h
  cases h with
  | inl hlower =>
      have hspace : isSpace c = false := by
        cases hs : isSpace c with
        | false => rfl
        | true =>
            simp only [isSpace, Char.isWhitespace, Bool.or_eq_true, beq_iff_eq,
              decide_eq_true_eq] at hs
            rcases hs with ((((rfl | rfl) | rfl) | rfl) | rfl) | rfl <;>
              exact absurd hlower (by decide)
      have hstart : isWordStart c = true := by
        simp [isWordStart, isAlpha_eq, hlower]
      rw [isLower_iff_toNat] at hlower
      rw [Lexing.enter, hspace, hstart, toLower_of_toNat (by omega)]
      rfl
  | inr hline =>
      subst hline
      rfl

theorem feed_word_plain (acc : List Char) {name : List Char}
    (h : name.all (fun c => c.isLower || c.isDigit || c == '_') = true) :
    (Lexing.word acc).feed conforming name = some ([], .word (acc ++ name)) := by
  induction name generalizing acc with
  | nil => simp [Lexing.feed]
  | cons c rest ih =>
      rw [List.all_cons, Bool.and_eq_true] at h
      rcases h with ⟨hc, hrest⟩
      have hword : isWordChar c = true := by
        simp only [Bool.or_eq_true, beq_iff_eq] at hc
        rcases hc with (hlower | hdigit) | rfl
        · simp [isWordChar, isWordStart, isAlpha_eq, hlower]
        · simp [isWordChar, hdigit]
        · rfl
      have hkeep : c.toLower = c := by
        simp only [Bool.or_eq_true, beq_iff_eq, isLower_iff_toNat, Char.isDigit_iff_toNat] at hc
        have hnine : '9'.toNat = 57 := rfl
        rcases hc with (hlower | hdigit) | rfl
        · exact toLower_of_toNat (by omega)
        · exact toLower_of_toNat (by omega)
        · rfl
      simp [Lexing.feed, Lexing.step, hword, hkeep, ih _ hrest]

theorem feed_plain {name : String} (h : isPlainAlias name = true) :
    Lexing.start.feed conforming name.toList = some ([], .word name.toList) := by
  unfold isPlainAlias at h
  cases hname : name.toList with
  | nil =>
      rw [hname] at h
      cases h
  | cons c rest =>
      rw [hname] at h
      simp only [Bool.and_eq_true] at h
      have hfirst : Lexing.start.feed conforming [c] = some ([], .word [c]) := by
        simp [Lexing.feed, Lexing.step, enter_plain h.1]
      exact Lexing.feed_of_append hfirst (feed_word_plain [c] h.2)

theorem opens_plain {name : String} (h : isPlainAlias name = true) {c : Char}
    (hc : c = '.' ∨ c = '(') :
    Opens conforming (name.toList ++ [c]) [.word name, .mark c] := by
  have hnext : (Lexing.word name.toList).feed conforming [c] =
      some ([.word (String.ofList name.toList), .mark c], .start) := by
    rcases hc with rfl | rfl <;> rfl
  rw [String.ofList_toList] at hnext
  exact Lexing.feed_of_append (feed_plain h) hnext

theorem startable_plain {name : String} (h : isPlainAlias name = true) :
    Startable name.toList := by
  unfold isPlainAlias at h
  cases hname : name.toList with
  | nil =>
      rw [hname] at h
      cases h
  | cons c rest =>
      rw [hname] at h
      simp only [Bool.and_eq_true, Bool.or_eq_true, beq_iff_eq] at h
      left
      cases hop : isOperatorChar c with
      | false => rfl
      | true =>
          simp only [isOperatorChar, List.contains_cons, List.contains_nil, Bool.or_false,
            Bool.or_eq_true, beq_iff_eq] at hop
          rcases hop with rfl | rfl | rfl | rfl | rfl | rfl | rfl | rfl | rfl | rfl | rfl | rfl |
            rfl | rfl | rfl | rfl | rfl <;> exact absurd h.1 (by decide)

theorem opens_aliasIdent (name : String) :
    Opens conforming ((aliasIdent name).toList ++ ['.']) [aliasToken name, .mark '.'] := by
  unfold aliasIdent aliasToken
  cases hplain : isPlainAlias name with
  | false => exact opens_quoteIdent_dot name
  | true => exact opens_plain hplain (Or.inl rfl)

/-!
## Types
-/

end Server

open Server in
def SqlType.tokens : SqlType -> List Token
  | null => [.word "unknown"]
  | boolean => [.word "boolean"]
  | integer => [.word "integer"]
  | bigint => [.word "bigint"]
  | real => [.word "real"]
  | double => [.word "double", .word "precision"]
  | numeric => [.word "numeric"]
  | text => [.word "text"]
  | uuid => [.word "uuid"]
  | date => [.word "date"]
  | time => [.word "time"]
  | timestamp => [.word "timestamp"]
  | interval => [.word "interval"]
  | bytea => [.word "bytea"]
  | json _ => [.word "jsonb"]
  | enum e =>
      match e.schema with
      | some schema => [.quoted schema, .mark '.', .quoted e.name]
      | none => [.quoted e.name]
  | array item => item.tokens ++ [.mark '[', .mark ']']

namespace Server

theorem lexes_cast (t : SqlType) : Lexes conforming t.cast.toList t.tokens := by
  induction t with
  | null => exact ⟨[], _, _, rfl, closes_word _ _, rfl⟩
  | boolean => exact ⟨[], _, _, rfl, closes_word _ _, rfl⟩
  | integer => exact ⟨[], _, _, rfl, closes_word _ _, rfl⟩
  | bigint => exact ⟨[], _, _, rfl, closes_word _ _, rfl⟩
  | real => exact ⟨[], _, _, rfl, closes_word _ _, rfl⟩
  | double => exact ⟨[.word "double"], _, _, rfl, closes_word _ _, rfl⟩
  | numeric => exact ⟨[], _, _, rfl, closes_word _ _, rfl⟩
  | text => exact ⟨[], _, _, rfl, closes_word _ _, rfl⟩
  | uuid => exact ⟨[], _, _, rfl, closes_word _ _, rfl⟩
  | date => exact ⟨[], _, _, rfl, closes_word _ _, rfl⟩
  | time => exact ⟨[], _, _, rfl, closes_word _ _, rfl⟩
  | timestamp => exact ⟨[], _, _, rfl, closes_word _ _, rfl⟩
  | interval => exact ⟨[], _, _, rfl, closes_word _ _, rfl⟩
  | bytea => exact ⟨[], _, _, rfl, closes_word _ _, rfl⟩
  | json shape =>
      rw [SqlType.cast, SqlType.tokens]
      exact ⟨[], _, _, rfl, closes_word _ _, rfl⟩
  | enum e =>
      rw [SqlType.cast, SqlType.tokens]
      cases e.schema with
      | none => exact lexes_quoteIdent e.name
      | some schema => exact lexes_qualifiedIdent schema e.name
  | array item ih =>
      have hbrackets : Opens conforming ['[', ']'] [.mark '[', .mark ']'] := rfl
      have h := ih.append (c := '[') rfl rfl hbrackets.lexes
      rw [SqlType.cast, SqlType.tokens, String.toList_append]
      exact h

end Server
end TypedQuery
