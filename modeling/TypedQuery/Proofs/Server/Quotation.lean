import TypedQuery.Schema.Table
import TypedQuery.Proofs.Server.Spelling

/-!
# Reading back what is quoted

A quoted text or name ends at its quote.  A quote that is written twice does not end it, and a text
goes on after its quote when the next one stands on a later line, with nothing but blanks and
comments before it.  The reader of this module gives one token and what stands behind it, so that it
says of any text that follows whether it changes what is read.
-/

namespace TypedQuery
namespace Server

/-!
## The reader
-/

inductive Gap where
  | sameLine
  | comment
  | laterLine

def isLineEnd (c : Char) : Bool := c == '\n' || c == '\r'

def takenUp? : Gap -> List Char -> Option (List Char)
  | _, [] => none
  | .comment, c :: rest => takenUp? (if isLineEnd c then .laterLine else .comment) rest
  | .laterLine, '\'' :: rest => some rest
  | _, '-' :: '-' :: rest => takenUp? .comment rest
  | gap, c :: rest =>
      if isLineEnd c then takenUp? .laterLine rest
      else if isSpace c then takenUp? gap rest
      else none

example : takenUp? .sameLine "  \n\t'below'".toList = some "below'".toList := by decide

theorem takenUp?_length {gap : Gap} {cs rest : List Char} (h : takenUp? gap cs = some rest) :
    rest.length < cs.length := by
  fun_induction takenUp? gap cs with
  | case1 => cases h
  | case2 c more ih => exact Nat.lt_succ_of_lt (ih h)
  | case3 more =>
      cases h
      exact Nat.lt_succ_self _
  | case4 gap more _ ih => exact Nat.lt_succ_of_lt (Nat.lt_succ_of_lt (ih h))
  | case5 gap c more _ _ _ _ ih => exact Nat.lt_succ_of_lt (ih h)
  | case6 gap c more _ _ _ _ _ ih => exact Nat.lt_succ_of_lt (ih h)
  | case7 => cases h

def textBody? (escapes : Bool) (acc : List Char) : List Char -> Option (Token × List Char)
  | [] => none
  | '\'' :: '\'' :: rest => textBody? escapes (acc ++ ['\'']) rest
  | '\'' :: rest =>
      match h : takenUp? .sameLine rest with
      | some more =>
          have := takenUp?_length h
          textBody? escapes acc more
      | none => some (.string (String.ofList acc), rest)
  | '\\' :: c :: rest =>
      if escapes then (escaped? c).bind fun d => textBody? escapes (acc ++ [d]) rest
      else textBody? escapes (acc ++ ['\\']) (c :: rest)
  | c :: rest => textBody? escapes (acc ++ [c]) rest
termination_by cs => cs.length

def nameBody? (acc : List Char) : List Char -> Option (Token × List Char)
  | [] => none
  | '"' :: '"' :: rest => nameBody? (acc ++ ['"']) rest
  | '"' :: rest => if acc = [] then none else some (.quoted (String.ofList acc), rest)
  | c :: rest => nameBody? (acc ++ [c]) rest

/-- The quoted text or name that stands first, and what stands behind it.  A plain text has escapes
unless strings are conforming; a name is not empty. -/
def quotation? (conforming : Bool) : List Char -> Option (Token × List Char)
  | '\'' :: rest => textBody? (!conforming) [] rest
  | 'E' :: '\'' :: rest | 'e' :: '\'' :: rest => textBody? true [] rest
  | '"' :: rest => nameBody? [] rest
  | _ => none

variable {acc cs rest : List Char} {token : Token}

theorem textBody?_length {escapes : Bool} (h : textBody? escapes acc cs = some (token, rest)) :
    rest.length < cs.length := by
  fun_induction textBody? escapes acc cs with
  | case1 => cases h
  | case2 acc more ih => exact Nat.lt_succ_of_lt (Nat.lt_succ_of_lt (ih h))
  | case3 acc tail hnext more htaken hlength ih =>
      exact Nat.lt_succ_of_lt (Nat.lt_trans (ih h) hlength)
  | case4 acc tail hnext hend =>
      cases h
      exact Nat.lt_succ_self _
  | case5 acc c more hescapes ih =>
      rcases Option.bind_eq_some_iff.mp h with ⟨d, -, h⟩
      exact Nat.lt_succ_of_lt (Nat.lt_succ_of_lt (ih d h))
  | case6 acc c more hescapes ih => exact Nat.lt_succ_of_lt (ih h)
  | case7 acc c more _ _ _ ih => exact Nat.lt_succ_of_lt (ih h)

theorem nameBody?_length (h : nameBody? acc cs = some (token, rest)) :
    rest.length < cs.length := by
  fun_induction nameBody? acc cs with
  | case1 => cases h
  | case2 acc more ih => exact Nat.lt_succ_of_lt (Nat.lt_succ_of_lt (ih h))
  | case3 => cases h
  | case4 acc more _ hacc =>
      cases h
      exact Nat.lt_succ_self _
  | case5 acc c more _ _ ih => exact Nat.lt_succ_of_lt (ih h)

theorem textBody?_doubled (escapes : Bool) (acc : List Char) {text : List Char}
    (h : '\\' ∉ text) (rest : List Char) :
    textBody? escapes acc (Text.doubled '\'' text ++ '\'' :: rest) =
      textBody? escapes (acc ++ text) ('\'' :: rest) := by
  induction text generalizing acc with
  | nil => rw [Text.doubled, List.nil_append, List.append_nil]
  | cons c more ih =>
      rw [List.mem_cons, not_or] at h
      rcases h with ⟨hc, hmore⟩
      rw [List.append_cons acc c more, <- ih (acc ++ [c]) hmore]
      by_cases hquote : c = '\''
      · rw [hquote, Text.doubled, if_pos rfl, List.cons_append, List.cons_append, textBody?]
      · rw [Text.doubled, if_neg hquote, List.cons_append, textBody?]
        -- The character begins neither a quote nor an escape.
        all_goals grind

theorem textBody?_doubled_twice (acc text rest : List Char) :
    textBody? true acc (Text.doubled '\\' (Text.doubled '\'' text) ++ '\'' :: rest) =
      textBody? true (acc ++ text) ('\'' :: rest) := by
  induction text generalizing acc with
  | nil => rw [Text.doubled, Text.doubled, List.nil_append, List.append_nil]
  | cons c more ih =>
      rw [List.append_cons acc c more, <- ih (acc ++ [c])]
      by_cases hquote : c = '\''
      · rw [hquote, Text.doubled, if_pos rfl]
        simp [Text.doubled, textBody?]
      · rw [Text.doubled, if_neg hquote, Text.doubled]
        by_cases hslash : c = '\\'
        · rw [hslash, if_pos rfl, List.cons_append, List.cons_append, textBody?, if_pos rfl]
          rfl
        · rw [if_neg hslash, List.cons_append, textBody?]
          all_goals grind

theorem nameBody?_doubled (acc name rest : List Char) :
    nameBody? acc (Text.doubled '"' name ++ '"' :: rest) =
      nameBody? (acc ++ name) ('"' :: rest) := by
  induction name generalizing acc with
  | nil => rw [Text.doubled, List.nil_append, List.append_nil]
  | cons c more ih =>
      rw [List.append_cons acc c more, <- ih (acc ++ [c])]
      by_cases hquote : c = '"'
      · rw [hquote, Text.doubled, if_pos rfl, List.cons_append, List.cons_append, nameBody?]
      · rw [Text.doubled, if_neg hquote, List.cons_append, nameBody?]
        all_goals grind

theorem quotation?_quoteLiteral (conforming : Bool) (text : String) (rest : List Char) :
    exists escapes, quotation? conforming ((Text.quoteLiteral text).toList ++ rest) =
      textBody? escapes text.toList ('\'' :: rest) := by
  rw [Text.quoteLiteral]
  by_cases hslash : '\\' ∈ text.toList
  · have htext : quotation? conforming ('E' :: '\'' ::
        (Text.doubled '\\' (Text.doubled '\'' text.toList) ++ '\'' :: rest)) =
          textBody? true text.toList ('\'' :: rest) := textBody?_doubled_twice [] text.toList rest
    rw [if_pos (mem_doubled.mpr hslash)]
    exact ⟨true, by simpa using htext⟩
  · have htext : quotation? conforming ('\'' :: (Text.doubled '\'' text.toList ++ '\'' :: rest)) =
        textBody? (!conforming) text.toList ('\'' :: rest) :=
      textBody?_doubled (!conforming) [] hslash rest
    rw [if_neg (mt mem_doubled.mp hslash)]
    exact ⟨!conforming, by simpa using htext⟩

theorem quotation?_quoteIdent (conforming : Bool) (name : String) (rest : List Char) :
    quotation? conforming ((Text.quoteIdent name).toList ++ rest) =
      nameBody? name.toList ('"' :: rest) := by
  have hname : quotation? conforming ('"' :: (Text.doubled '"' name.toList ++ '"' :: rest)) =
      nameBody? name.toList ('"' :: rest) := nameBody?_doubled [] name.toList rest
  rw [Text.toList_quoteIdent]
  simpa using hname

/-- At a quote a text ends, unless that is written twice or the text is taken up again. -/
theorem textBody?_quote {escapes : Bool} : textBody? escapes acc ('\'' :: rest) =
    some (.string (String.ofList acc), rest) <->
      rest.head? ≠ some '\'' ∧ takenUp? .sameLine rest = none := by
  by_cases hquote : rest.head? = some '\''
  · rcases List.head?_eq_some_iff.mp hquote with ⟨more, rfl⟩
    rw [textBody?]
    constructor
    · intro h
      -- Behind the second quote less is left than there would have to be.
      exact absurd (textBody?_length h) (Nat.not_lt.mpr (Nat.le_succ _))
    · exact fun h => absurd hquote h.1
  · have hnext : forall more, rest ≠ '\'' :: more := by
      rintro more rfl
      exact hquote rfl
    rw [textBody?.eq_3 _ _ _ hnext]
    split
    · rename_i more htaken
      constructor
      · intro h
        exact absurd (textBody?_length h) (Nat.lt_asymm (takenUp?_length htaken))
      · intro h
        rw [htaken] at h
        cases h.2
    · rename_i hend
      exact ⟨fun _ => ⟨hquote, hend⟩, fun _ => rfl⟩

/-- At a quote a name ends, unless that is written twice. -/
theorem nameBody?_quote (h : rest.head? ≠ some '"') : nameBody? acc ('"' :: rest) =
    if acc = [] then none else some (.quoted (String.ofList acc), rest) := by
  have hnext : forall more, rest ≠ '"' :: more := by
    rintro more rfl
    exact h rfl
  rw [nameBody?.eq_3 _ _ hnext]

/-!
## Quoted texts and names
-/

theorem quotation?_quoteLiteral_iff {conforming : Bool} {text : String} :
    quotation? conforming ((Text.quoteLiteral text).toList ++ rest) = some (.string text, rest) <->
      rest.head? ≠ some '\'' ∧ takenUp? .sameLine rest = none := by
  rcases quotation?_quoteLiteral conforming text rest with ⟨escapes, htext⟩
  have hend := @textBody?_quote text.toList rest escapes
  rw [String.ofList_toList] at hend
  rw [htext, hend]

theorem quotation?_quoteIdent_of_head (conforming : Bool) (name : String)
    (h : rest.head? ≠ some '"') : quotation? conforming ((Text.quoteIdent name).toList ++ rest) =
      if name = "" then none else some (.quoted name, rest) := by
  rw [quotation?_quoteIdent, nameBody?_quote h, String.ofList_toList]
  simp only [String.toList_eq_nil_iff]

theorem quotation?_quoteIdent_iff {conforming : Bool} {name : String} :
    quotation? conforming ((Text.quoteIdent name).toList ++ rest) = some (.quoted name, rest) <->
      name ≠ "" ∧ rest.head? ≠ some '"' := by
  by_cases hquote : rest.head? = some '"'
  · rcases List.head?_eq_some_iff.mp hquote with ⟨more, rfl⟩
    rw [quotation?_quoteIdent, nameBody?]
    constructor
    · intro h
      exact absurd (nameBody?_length h) (Nat.not_lt.mpr (Nat.le_succ _))
    · exact fun h => absurd hquote h.2
  · rw [quotation?_quoteIdent_of_head conforming name hquote]
    split
    · rename_i hempty
      exact ⟨nofun, fun h => absurd hempty h.1⟩
    · rename_i hname
      exact ⟨fun _ => ⟨hname, hquote⟩, fun _ => rfl⟩

/-!
## Names with a schema
-/

theorem quotation?_length {conforming : Bool} (h : quotation? conforming cs = some (token, rest)) :
    rest.length < cs.length := by
  unfold quotation? at h
  split at h
  · exact Nat.lt_succ_of_lt (textBody?_length h)
  · exact Nat.lt_succ_of_lt (Nat.lt_succ_of_lt (textBody?_length h))
  · exact Nat.lt_succ_of_lt (Nat.lt_succ_of_lt (textBody?_length h))
  · exact Nat.lt_succ_of_lt (nameBody?_length h)
  · cases h

def dottedNames? (conforming : Bool) (cs : List Char) : Option (List Token) :=
  match h : quotation? conforming cs with
  | some (.quoted name, []) => some [.quoted name]
  | some (.quoted name, '.' :: rest) =>
      have : rest.length < cs.length := Nat.lt_of_succ_lt (quotation?_length h)
      (dottedNames? conforming rest).map fun more => .quoted name :: .mark '.' :: more
  | _ => none
termination_by cs.length

theorem dottedNames?_quoteIdent (conforming : Bool) (name : String) :
    dottedNames? conforming (Text.quoteIdent name).toList =
      if name = "" then none else some [.quoted name] := by
  have hname := @quotation?_quoteIdent_of_head [] conforming name nofun
  rw [List.append_nil] at hname
  rw [dottedNames?]
  grind

theorem dottedNames?_quoteIdent_dot (conforming : Bool) (schema : String) (rest : List Char) :
    dottedNames? conforming ((Text.quoteIdent schema).toList ++ '.' :: rest) =
      if schema = "" then none
      else (dottedNames? conforming rest).map fun more => .quoted schema :: .mark '.' :: more := by
  have hschema := @quotation?_quoteIdent_of_head ('.' :: rest) conforming schema (by simp)
  rw [dottedNames?]
  grind

def nameTokens (t : Table) : List Token :=
  match t.schema with
  | some schema => [.quoted schema, .mark '.', .quoted t.name]
  | none => [.quoted t.name]

theorem dottedNames?_qualifiedName (conforming : Bool) (t : Table) :
    dottedNames? conforming t.qualifiedName.toList =
      if t.name = "" ∨ t.schema = some "" then none else some (nameTokens t) := by
  rw [Table.qualifiedName, nameTokens]
  cases t.schema with
  | none =>
      rw [Text.qualifiedIdent, dottedNames?_quoteIdent]
      simp
  | some schema =>
      have htext : (Text.qualifiedIdent (some schema) t.name).toList =
          (Text.quoteIdent schema).toList ++ '.' :: (Text.quoteIdent t.name).toList := by
        simp [Text.qualifiedIdent]
      rw [htext, dottedNames?_quoteIdent_dot, dottedNames?_quoteIdent]
      by_cases hschema : schema = "" <;> by_cases hname : t.name = "" <;> simp [hschema, hname]

/-- Reading undoes quoting, with conforming strings and without.  A quoted text is read up to its
quote and as itself, unless the next character is that quote again or the text is taken up again on
a later line; a quoted name is, unless it is empty or the next character is its quote again.  The
name of a table, quoted as a text, is read as the name, and that as its schema, a dot and the name
in it. -/
theorem quotation_undone (conforming : Bool) :
    (forall (text : String) (rest : List Char),
      quotation? conforming ((Text.quoteLiteral text).toList ++ rest) =
          some (.string text, rest) <->
        rest.head? ≠ some '\'' ∧ takenUp? .sameLine rest = none) ∧
      (forall (name : String) (rest : List Char),
        quotation? conforming ((Text.quoteIdent name).toList ++ rest) =
            some (.quoted name, rest) <->
          name ≠ "" ∧ rest.head? ≠ some '"') ∧
      forall t : Table,
        quotation? conforming (Text.quoteLiteral t.qualifiedName).toList =
          some (.string t.qualifiedName, []) ∧
        dottedNames? conforming t.qualifiedName.toList =
          if t.name = "" ∨ t.schema = some "" then none else some (nameTokens t) := by
  refine ⟨fun _ _ => quotation?_quoteLiteral_iff, fun _ _ => quotation?_quoteIdent_iff, ?_⟩
  intro t
  have hname := (@quotation?_quoteLiteral_iff [] conforming t.qualifiedName).mpr ⟨nofun, rfl⟩
  rw [List.append_nil] at hname
  exact ⟨hname, dottedNames?_qualifiedName conforming t⟩

end Server
end TypedQuery
