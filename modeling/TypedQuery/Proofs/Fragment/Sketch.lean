import TypedQuery.Proofs.Fragment.Text
import TypedQuery.Proofs.Server.Literal
import TypedQuery.Proofs.Server.Word

/-!
# Sketches

A sketch is a fragment that says of its texts where in them a name or a constant stands.  With the
words of values, columns and tables it gives the words of the whole rendering.  Sketches are alike
when they differ only in what is written between quotes.
-/

namespace TypedQuery

open Server

/-!
## Words of names and types
-/

namespace Word

def qualified (schema : Option String) (name : String) : List Word :=
  match schema with
  | some schema => [.ident schema, .sql ".", .ident name]
  | none => [.ident name]

def ofAlias (name : String) : Word := if isPlainAlias name then .sql name else .ident name

theorem spell_qualified (schema : Option String) (name : String) :
    spell (qualified schema name) = Text.qualifiedIdent schema name := by
  cases schema with
  | none => simp [qualified, Text.qualifiedIdent]
  | some schema => simp [qualified, Text.qualifiedIdent, String.append_assoc]

theorem spelled_ofAlias (name : String) : (ofAlias name).spelled = aliasIdent name := by
  unfold ofAlias aliasIdent
  split <;> rfl

theorem alike_qualified {schema schema' : Option String} (h : schema.isSome = schema'.isSome)
    (name name' : String) :
    List.Forall₂ Alike (qualified schema name) (qualified schema' name') := by
  cases schema with
  | none =>
      cases schema' with
      | none => exact .cons (.ident _ _) .nil
      | some schema' => cases h
  | some schema =>
      cases schema' with
      | none => cases h
      | some schema' => exact .cons (.ident _ _) (.cons (.sql _) (.cons (.ident _ _) .nil))

theorem alike_refl_all (ws : List Word) : List.Forall₂ Alike ws ws :=
  List.forall₂_same.mpr fun w _ => .refl w

def joined (separator : String) : List (List Word) -> List Word
  | [] => []
  | [ws] => ws
  | ws :: rest => ws ++ .sql separator :: joined separator rest

theorem spell_joined (separator : String) (items : List (List Word)) :
    spell (joined separator items) = separator.intercalate (items.map spell) := by
  induction items with
  | nil => rfl
  | cons ws rest ih =>
      cases rest with
      | nil => exact String.intercalate_singleton.symm
      | cons next more =>
          rw [joined, spell_append, spell_cons, ih, List.map_cons, List.map_cons, List.map_cons,
            String.intercalate_cons_cons, String.append_assoc]
          · rfl
          · exact List.cons_ne_nil next more

theorem alike_joined (separator : String) {items items' : List (List Word)}
    (h : List.Forall₂ (List.Forall₂ Alike) items items') :
    List.Forall₂ Alike (joined separator items) (joined separator items') := by
  induction h with
  | nil => exact .nil
  | @cons ws ws' rest rest' hws hrest ih =>
      cases hrest with
      | nil => exact hws
      | cons hnext hmore =>
          exact List.rel_append hws (.cons (.sql separator) ih)

end Word

namespace SqlType

def words : SqlType -> List Word
  | enum e => Word.qualified e.schema e.name
  | array item => item.words ++ [.sql "[]"]
  | t => [.sql t.cast]

/-- Types that differ only in the names of enum types and of the shapes of documents. -/
inductive Alike : SqlType -> SqlType -> Prop where
  | refl (t : SqlType) : Alike t t
  | json (shape shape' : Option String) : Alike (.json shape) (.json shape')
  | enum {e e' : EnumType} (h : e.schema.isSome = e'.schema.isSome) : Alike (.enum e) (.enum e')
  | array {item item' : SqlType} (h : Alike item item') : Alike (.array item) (.array item')

theorem spell_words (t : SqlType) : Word.spell t.words = t.cast := by
  induction t with
  | enum e => exact Word.spell_qualified e.schema e.name
  | array item ih =>
      rw [words, Word.spell_append, ih]
      rfl
  | _ => exact String.append_empty

theorem Alike.words {t t' : SqlType} (h : t.Alike t') :
    List.Forall₂ Word.Alike t.words t'.words := by
  induction h with
  | refl t => exact Word.alike_refl_all t.words
  | json shape shape' => exact .cons (.sql _) .nil
  | enum h => exact Word.alike_qualified h _ _
  | array _ ih => exact List.rel_append ih (Word.alike_refl_all _)

end SqlType

/-!
## Words of values
-/

namespace Value

mutual

def words : Value -> List Word
  | null => [.sql "NULL"]
  | bool b => [.sql (boolLiteral b)]
  | int n => [.sql (toString n.toInt)]
  | bigint n => [.sql (toString n.toInt)]
  | array (item :: rest) =>
      .sql "ARRAY[" :: (Word.joined "," (itemWords (item :: rest)) ++ [.sql "]"])
  | v => [.constant v.quotedText]

def itemWords : List Value -> List (List Word)
  | [] => []
  | item :: rest => item.words :: itemWords rest

end

mutual

/-- Values that differ only in the characters of texts, labels, bytes and documents. -/
inductive Alike : Value -> Value -> Prop where
  | refl (v : Value) : Alike v v
  | text (s s' : String) : Alike (.text s) (.text s')
  | enum (label label' : String) : Alike (.enum label) (.enum label')
  | bytes (b b' : List UInt8) : Alike (.bytes b) (.bytes b')
  | json (document document' : Json) : Alike (.json document) (.json document')
  | array {items items' : List Value} (h : AllAlike items items') :
      Alike (.array items) (.array items')

inductive AllAlike : List Value -> List Value -> Prop where
  | nil : AllAlike [] []
  | cons {item item' : Value} {rest rest' : List Value} (h : Alike item item')
      (hrest : AllAlike rest rest') : AllAlike (item :: rest) (item' :: rest')

end

theorem joinComma_eq (items : List String) : joinComma items = ",".intercalate items := by
  induction items with
  | nil => rfl
  | cons item rest ih =>
      cases rest with
      | nil => exact String.intercalate_singleton.symm
      | cons next more =>
          rw [joinComma, ih, String.intercalate_cons_cons]
          exact List.cons_ne_nil next more

mutual

theorem spell_words (v : Value) : Word.spell v.words = v.literal := by
  cases v with
  | array items =>
      cases items with
      | nil =>
          simp only [words, literal]
          decide
      | cons item rest =>
          rw [words, literal, Word.spell_cons, Word.spell_append, Word.spell_joined, joinComma_eq,
            map_spell_itemWords]
          simp [String.append_assoc]
  | _ => simp [words, literal, quotedText]

theorem map_spell_itemWords (items : List Value) :
    (itemWords items).map Word.spell = itemLiterals items := by
  cases items with
  | nil => rfl
  | cons item rest =>
      rw [itemWords, itemLiterals, List.map_cons, spell_words item, map_spell_itemWords rest]

end

mutual

theorem Alike.words {v v' : Value} (h : v.Alike v') :
    List.Forall₂ Word.Alike v.words v'.words := by
  cases h with
  | refl v => exact Word.alike_refl_all v.words
  | text s s' => exact .cons (.constant _ _) .nil
  | enum label label' => exact .cons (.constant _ _) .nil
  | bytes b b' => exact .cons (.constant _ _) .nil
  | json document document' => exact .cons (.constant _ _) .nil
  | array h =>
      cases h with
      | nil => exact Word.alike_refl_all _
      | cons hitem hrest =>
          have hitems := AllAlike.itemWords (.cons hitem hrest)
          rw [Value.words, Value.words]
          exact .cons (.sql _)
            (List.rel_append (Word.alike_joined "," hitems) (.cons (.sql _) .nil))

theorem AllAlike.itemWords {items items' : List Value} (h : AllAlike items items') :
    List.Forall₂ (List.Forall₂ Word.Alike) (itemWords items) (itemWords items') := by
  cases h with
  | nil => exact .nil
  | cons hitem hrest => exact .cons (Alike.words hitem) (AllAlike.itemWords hrest)

end

end Value

namespace Typed

def castWords (v : Typed) : List Word :=
  match v.castType? with
  | some type => .sql "::" :: type.words
  | none => []

def words (v : Typed) : List Word := v.value.words ++ if v.isBound then v.castWords else []

/-- Values that differ only in characters, and by that neither becomes a parameter nor stops being
one. -/
structure Alike (v v' : Typed) : Prop where
  value : v.value.Alike v'.value
  type : v.type.Alike v'.type
  isBound : v.isBound = v'.isBound

theorem spell_castWords (v : Typed) : Word.spell v.castWords = castOf v := by
  have hcast := castOf_toList v
  rw [<- String.toList_inj, hcast, castWords]
  cases v.castType? with
  | none => rfl
  | some type =>
      dsimp only
      rw [Word.spell_cons, type.spell_words, String.toList_append]
      rfl

/-- Whether a value becomes a parameter depends on its characters for texts alone, and there on
which side of the limit the length is. -/
theorem alike_of_length {v v' : Typed} (hvalue : v.value.Alike v'.value)
    (htype : v.type.Alike v'.type)
    (hlength : forall s s', v.value = .text s -> v'.value = .text s' ->
      (s.length < inlineTextLimit <-> s'.length < inlineTextLimit)) : v.Alike v' := by
  refine ⟨hvalue, htype, ?_⟩
  rcases v with ⟨value, type⟩
  rcases v' with ⟨value', type'⟩
  dsimp only at hvalue hlength
  cases hvalue with
  | refl value => rfl
  | text s s' =>
      have hside := hlength s s' rfl rfl
      by_cases hshort : s'.length < inlineTextLimit
      · simp [isBound, Value.inlineLiteral?, hside.mpr hshort, hshort]
      · simp [isBound, Value.inlineLiteral?, mt hside.mp hshort, hshort]
  | _ => rfl

theorem spell_words (scopes : Scopes) (v : Typed) :
    Word.spell v.words = Piece.simpleText [Placed.piece ⟨scopes, .value v⟩] := by
  rw [words, Word.spell_append, v.value.spell_words, isBound, Placed.piece]
  dsimp only
  cases hinline : v.value.inlineLiteral? with
  | some literal =>
      rw [Value.literal_of_inline hinline]
      simp [Piece.simpleText]
  | none =>
      simp [Piece.simpleText, v.spell_castWords]

theorem Alike.castType? {v v' : Typed} (h : v.Alike v') :
    Option.Rel SqlType.Alike v.castType? v'.castType? := by
  rcases v with ⟨value, type⟩
  rcases v' with ⟨value', type'⟩
  rcases h with ⟨hvalue, htype, -⟩
  dsimp only at hvalue htype
  have hsome : forall {type type' : SqlType}, type.Alike type' ->
      Option.Rel SqlType.Alike (some type) (some type') := fun h => .some h
  cases htype with
  | refl type =>
      cases type with
      | null =>
          cases hvalue with
          | refl value => cases value <;> first | exact .none | exact .some (.refl _)
          | array h => exact .some (.refl _)
          | _ => exact .none
      | _ => exact .some (.refl _)
  | json shape shape' => exact .some (.json shape shape')
  | enum h => exact .some (.enum h)
  | array h => exact .some (.array h)

theorem Alike.words {v v' : Typed} (h : v.Alike v') :
    List.Forall₂ Word.Alike v.words v'.words := by
  have hcast : List.Forall₂ Word.Alike v.castWords v'.castWords := by
    have htype := h.castType?
    unfold castWords
    generalize v.castType? = type, v'.castType? = type' at htype
    cases htype with
    | none => exact .nil
    | some htype => exact .cons (.sql _) htype.words
  rw [Typed.words, Typed.words, h.isBound]
  refine List.rel_append h.value.words ?_
  cases v'.isBound with
  | false => exact .nil
  | true => exact hcast

end Typed

/-!
## Words of columns and tables
-/

namespace Scopes

variable {scopes scopes' : Scopes}

def columnWords (scopes : Scopes) (slot : Slot) (name : String) : List Word :=
  match scopes.qualifierName? slot with
  | some qualifier => [.ofAlias qualifier, .sql ".", .ident name]
  | none => [.ident name]

def tableWords (scopes : Scopes) (slot : Slot) (t : Table) : List Word :=
  Word.qualified t.schema t.name ++
    match scopes.tableName? slot with
    | some name => [.sql " ", .ofAlias name]
    | none => []

theorem spell_columnWords (scopes : Scopes) (slot : Slot) (name : String) :
    Word.spell (scopes.columnWords slot name) = scopes.columnText slot name := by
  rw [columnText, qualifier?_eq, columnWords]
  cases scopes.qualifierName? slot with
  | none => simp
  | some qualifier =>
      simp [Word.spelled_ofAlias, String.append_assoc]

theorem spell_tableWords (scopes : Scopes) (slot : Slot) (t : Table) :
    Word.spell (scopes.tableWords slot t) = scopes.tableText slot t := by
  rw [tableText, tableAlias?_eq, tableWords, Word.spell_append, Word.spell_qualified]
  cases scopes.tableName? slot with
  | none => simp [Table.qualifiedName]
  | some name =>
      simp [Word.spelled_ofAlias, Table.qualifiedName, String.append_assoc]

theorem Alike.columnWords (h : scopes.Alike scopes') (slot : Slot) (name name' : String) :
    List.Forall₂ Word.Alike (scopes.columnWords slot name) (scopes'.columnWords slot name') := by
  unfold Scopes.columnWords
  rw [h.qualifierName]
  cases scopes'.qualifierName? slot with
  | none => exact .cons (.ident _ _) .nil
  | some qualifier => exact .cons (.refl _) (.cons (.sql _) (.cons (.ident _ _) .nil))

theorem Alike.tableWords (h : scopes.Alike scopes') (slot : Slot) {t t' : Table}
    (ht : t.schema.isSome = t'.schema.isSome) :
    List.Forall₂ Word.Alike (scopes.tableWords slot t) (scopes'.tableWords slot t') := by
  unfold Scopes.tableWords
  rw [h.tableName]
  exact List.rel_append (Word.alike_qualified ht _ _) (Word.alike_refl_all _)

end Scopes

/-!
## Sketches
-/

/-- A part of a fragment, its text cut into words. -/
inductive Sketch where
  | words (ws : List Word)
  | value (v : Typed)
  | column (slot : Slot) (name : String)
  | table (slot : Slot) (t : Table)
  | nested (inner : List Sketch)
  | frame (aliases : AliasMap) (unqualified : Bool) (inner : List Sketch)

namespace Sketch

mutual

def part : Sketch -> Part
  | words ws => .text (Word.spell ws)
  | value v => .value v
  | column slot name => .column slot name
  | table slot t => .table slot t
  | nested inner => .nested (parts inner)
  | frame aliases unqualified inner => .frame aliases unqualified (parts inner)

def parts : List Sketch -> List Part
  | [] => []
  | first :: rest => first.part :: parts rest

end

mutual

def wordsIn (scopes : Scopes) : Sketch -> List Word
  | words ws => ws
  | value v => v.words
  | column slot name => scopes.columnWords slot name
  | table slot t => scopes.tableWords slot t
  | nested inner => allWordsIn scopes inner
  | frame aliases unqualified inner => allWordsIn (scopes.push aliases unqualified) inner

def allWordsIn (scopes : Scopes) : List Sketch -> List Word
  | [] => []
  | first :: rest => first.wordsIn scopes ++ allWordsIn scopes rest

end

mutual

theorem spell_wordsIn (scopes : Scopes) (first : Sketch) :
    Word.spell (first.wordsIn scopes) = Piece.simpleText (Part.pieces scopes [first.part]) := by
  cases first with
  | words ws => simp [wordsIn, part, Part.pieces, Part.allLeaves, Part.leaves, Placed.piece,
      Piece.simpleText]
  | value v => exact v.spell_words scopes
  | column slot name =>
      rw [wordsIn, scopes.spell_columnWords]
      simp [part, Part.pieces, Part.allLeaves, Part.leaves, Placed.piece, Piece.simpleText]
  | table slot t =>
      rw [wordsIn, scopes.spell_tableWords]
      simp [part, Part.pieces, Part.allLeaves, Part.leaves, Placed.piece, Piece.simpleText]
  | nested inner =>
      rw [wordsIn, part, Part.pieces_singleton]
      exact spell_allWordsIn scopes inner
  | frame aliases unqualified inner =>
      rw [wordsIn, part, Part.pieces_singleton]
      exact spell_allWordsIn (scopes.push aliases unqualified) inner

theorem spell_allWordsIn (scopes : Scopes) (all : List Sketch) :
    Word.spell (allWordsIn scopes all) = Piece.simpleText (Part.pieces scopes (parts all)) := by
  cases all with
  | nil => rfl
  | cons first rest =>
      have hsplit : first.part :: parts rest = [first.part] ++ parts rest := rfl
      rw [allWordsIn, parts, hsplit, Part.pieces_append, Piece.simpleText_append,
        Word.spell_append, spell_wordsIn scopes first, spell_allWordsIn scopes rest]

end

mutual

/-- Sketches of the same shape that differ only in the characters of values and names. -/
inductive Alike : Sketch -> Sketch -> Prop where
  | words {ws ws' : List Word} (h : List.Forall₂ Word.Alike ws ws') : Alike (.words ws) (.words ws')
  | value {v v' : Typed} (h : v.Alike v') : Alike (.value v) (.value v')
  | column (slot : Slot) (name name' : String) : Alike (.column slot name) (.column slot name')
  | table (slot : Slot) {t t' : Table} (h : t.schema.isSome = t'.schema.isSome) :
      Alike (.table slot t) (.table slot t')
  | nested {inner inner' : List Sketch} (h : AllAlike inner inner') :
      Alike (.nested inner) (.nested inner')
  | frame {aliases aliases' : AliasMap} (haliases : aliases.Alike aliases') (unqualified : Bool)
      {inner inner' : List Sketch} (h : AllAlike inner inner') :
      Alike (.frame aliases unqualified inner) (.frame aliases' unqualified inner')

inductive AllAlike : List Sketch -> List Sketch -> Prop where
  | nil : AllAlike [] []
  | cons {first first' : Sketch} {rest rest' : List Sketch} (h : Alike first first')
      (hrest : AllAlike rest rest') : AllAlike (first :: rest) (first' :: rest')

end

mutual

theorem Alike.wordsIn {scopes scopes' : Scopes} (hscopes : scopes.Alike scopes')
    {first first' : Sketch} (h : first.Alike first') :
    List.Forall₂ Word.Alike (first.wordsIn scopes) (first'.wordsIn scopes') := by
  cases h with
  | words h => exact h
  | value h => exact h.words
  | column slot name name' => exact hscopes.columnWords slot name name'
  | table slot h => exact hscopes.tableWords slot h
  | nested h => exact AllAlike.allWordsIn hscopes h
  | frame haliases unqualified h => exact AllAlike.allWordsIn (hscopes.push haliases unqualified) h

theorem AllAlike.allWordsIn {scopes scopes' : Scopes} (hscopes : scopes.Alike scopes')
    {all all' : List Sketch} (h : AllAlike all all') :
    List.Forall₂ Word.Alike (allWordsIn scopes all) (allWordsIn scopes' all') := by
  cases h with
  | nil => exact .nil
  | cons hfirst hrest =>
      exact List.rel_append (Alike.wordsIn hscopes hfirst) (AllAlike.allWordsIn hscopes hrest)

end

/-!
## The fragment that is sketched
-/

def wordsOf (all : List Sketch) : List Word := allWordsIn {} all

/-- The fragment is the one that is sketched, and its words keep clear of each other. -/
structure Draws (all : List Sketch) (f : Fragment) : Prop where
  parts_eq : parts all = f.parts
  separate : Word.Separate (wordsOf all)

variable {all all' : List Sketch} {f f' : Fragment}

theorem Draws.spell_wordsOf (h : Draws all f) : Word.spell (wordsOf all) = f.renderSimple := by
  rw [f.renderSimple_eq, Fragment.pieces, <- h.parts_eq]
  exact spell_allWordsIn {} all

theorem AllAlike.wordsOf (h : AllAlike all all') :
    List.Forall₂ Word.Alike (wordsOf all) (wordsOf all') :=
  AllAlike.allWordsIn ⟨fun _ => rfl, fun _ => rfl⟩ h

/-- A sketch that is alike draws its fragment as well. -/
theorem Draws.of_alike (h : Draws all f) (hparts : parts all' = f'.parts)
    (halike : AllAlike all all') : Draws all' f' :=
  ⟨hparts, Word.separate_of_alike halike.wordsOf h.separate⟩

/-- A fragment that the lexer can cut, and one that is alike, are cut into tokens of the same kinds,
and the quoted tokens of each are the names and constants that were written. -/
theorem Draws.exists_tokens (h : Draws all f) (h' : Draws all' f') (halike : AllAlike all all')
    {conforming : Bool} {tokens : List Token}
    (htokens : tokens? conforming f.renderSimple.toList = some tokens) :
    exists tokens', tokens? conforming f'.renderSimple.toList = some tokens' ∧
      List.Forall₂ Token.Alike tokens tokens' ∧
        tokens.filter Token.isQuoted = Word.quotes (wordsOf all) ∧
          tokens'.filter Token.isQuoted = Word.quotes (wordsOf all') := by
  rw [<- h.spell_wordsOf] at htokens
  rw [<- h'.spell_wordsOf]
  rcases Word.tokens?_of_alike h.separate halike.wordsOf htokens with ⟨tokens', htokens', hkinds⟩
  exact ⟨tokens', htokens', hkinds, Word.filter_tokens? h.separate htokens,
    Word.filter_tokens? h'.separate htokens'⟩

end Sketch
end TypedQuery
