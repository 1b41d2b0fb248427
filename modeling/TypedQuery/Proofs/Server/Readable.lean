import Mathlib.Data.List.Forall2
import TypedQuery.Proofs.Server.Qualifier

/-!
# Readable text

Text is readable when the lexer cuts it into tokens that read as an expression, unless a qualifier
in it is refused.  The lemmas here put readable texts together the way fragments do.
-/

namespace TypedQuery
namespace Server

section

variable (conforming : Bool) (env : Nat -> Option Tree)

def AtomText (text : List Char) (t : Tree) : Prop :=
  Startable text ∧ exists tokens, Lexes conforming text tokens ∧
    Outcome tokens t.isQualified (ReadsAtom env tokens t)

def OperandText (text : List Char) (t : Tree) : Prop :=
  Startable text ∧ exists tokens, Lexes conforming text tokens ∧
    Outcome tokens t.isQualified (ReadsOperand env tokens t)

def SpineText (level : Nat) (text : List Char) (spine : Spine) : Prop :=
  Startable text ∧ exists tokens, Lexes conforming text tokens ∧
    Outcome tokens spine.tree.isQualified (ReadsSpine env level tokens spine)

def WholeText (text : List Char) (t : Tree) : Prop :=
  exists tokens, Lexes conforming text tokens ∧ Outcome tokens t.isQualified (Reads env tokens t)

end

variable {conforming : Bool} {env : Nat -> Option Tree}

theorem AtomText.operand {text : List Char} {t : Tree} (h : AtomText conforming env text t) :
    OperandText conforming env text t := by
  rcases h with ⟨hstart, tokens, hlex, hout⟩
  exact ⟨hstart, tokens, hlex, hout.imp ReadsAtom.readsOperand⟩

theorem OperandText.spine {text : List Char} {t : Tree} (h : OperandText conforming env text t)
    {level : Nat} (hlevel : level ≤ Level.other) :
    SpineText conforming env level text ⟨t, []⟩ := by
  rcases h with ⟨hstart, tokens, hlex, hout⟩
  exact ⟨hstart, tokens, hlex, hout.imp fun hreads => hreads.readsSpine hlevel⟩

theorem SpineText.mono {level lower : Nat} {text : List Char} {spine : Spine}
    (h : SpineText conforming env level text spine) (hlower : lower ≤ level) :
    SpineText conforming env lower text spine := by
  rcases h with ⟨hstart, tokens, hlex, hout⟩
  exact ⟨hstart, tokens, hlex, hout.imp fun hreads => hreads.mono hlower⟩

theorem SpineText.whole {text : List Char} {spine : Spine}
    (h : SpineText conforming env 0 text spine) : WholeText conforming env text spine.tree := by
  rcases h with ⟨-, tokens, hlex, hout⟩
  exact ⟨tokens, hlex, hout.imp ReadsSpine.reads⟩

theorem AtomText.spine {text : List Char} {t : Tree} (h : AtomText conforming env text t) :
    SpineText conforming env 0 text ⟨t, []⟩ :=
  h.operand.spine (Nat.zero_le _)

theorem AtomText.whole {text : List Char} {t : Tree} (h : AtomText conforming env text t) :
    WholeText conforming env text t :=
  h.spine.whole

theorem WholeText.read?_of_isQualified {text : String} {t : Tree}
    (h : WholeText conforming env text.toList t) (hqualified : t.isQualified = true) :
    read? conforming env text = some t := by
  rcases h with ⟨tokens, hlex, hout⟩
  exact read?_of_reads hlex (hout.reads hqualified)

theorem WholeText.read?_eq_none {text : String} {t : Tree}
    (h : WholeText conforming env text.toList t) (hqualified : t.isQualified = false) :
    read? conforming env text = none := by
  rcases h with ⟨tokens, hlex, hout⟩
  exact (hout.refused hqualified).read?_eq_none hlex

/-!
## Parentheses and brackets
-/

theorem lexes_enclosed {before text : List Char} {opening tokens : List Token} {c : Char}
    (hbefore : Opens conforming before opening) (htext : Lexes conforming text tokens)
    (hc : c = ')' ∨ c = ']') :
    Opens conforming (before ++ (text ++ [c])) (opening ++ (tokens ++ [.mark c])) := by
  have hclose : Opens conforming [c] [.mark c] := by
    rcases hc with rfl | rfl <;> rfl
  have hdelimiter : isDelimiter c = true := by
    rcases hc with rfl | rfl <;> rfl
  have hinner := htext.append_opens rfl hdelimiter hclose
  exact Lexing.feed_of_append hbefore hinner

theorem WholeText.group {text : List Char} {t : Tree} (h : WholeText conforming env text t) :
    AtomText conforming env ('(' :: (text ++ [')'])) t := by
  rcases h with ⟨tokens, hlex, hout⟩
  have hparen : Opens conforming ['('] [.mark '('] := rfl
  exact ⟨Or.inl rfl, _, (lexes_enclosed hparen hlex (Or.inl rfl)).lexes,
    hout.map (Refused.enclosed _ _) Reads.group⟩

theorem WholeText.subscript {text index : List Char} {t i : Tree}
    (h : WholeText conforming env text t) (hindex : WholeText conforming env index i) :
    AtomText conforming env ('(' :: (text ++ [')']) ++ '[' :: (index ++ [']']))
      (.subscript t i) := by
  rcases h with ⟨tokens, hlex, hout⟩
  rcases hindex with ⟨indexTokens, hlexIndex, houtIndex⟩
  have hparen : Opens conforming ['('] [.mark '('] := rfl
  have hbracket : Opens conforming ['['] [.mark '['] := rfl
  have hgroup := lexes_enclosed hparen hlex (Or.inl rfl)
  have hopens := lexes_enclosed hbracket hlexIndex (Or.inr rfl)
  refine ⟨Or.inl rfl, _, hgroup.append hopens.lexes, ?_⟩
  refine hout.map₂ houtIndex ?_ ?_ Reads.subscript
  · exact fun h => (h.enclosed _ _).append_right _
  · exact fun h => (h.enclosed _ _).append_left _

theorem AtomText.cast {text : List Char} {t : Tree} (h : AtomText conforming env text t)
    (type : SqlType) :
    AtomText conforming env (text ++ ':' :: ':' :: type.cast.toList) (.cast t type.tokens) := by
  rcases h with ⟨hstart, tokens, hlex, hout⟩
  have hcolons : Opens conforming [':', ':'] [.typecast] := rfl
  have hcast : Lexes conforming (':' :: ':' :: type.cast.toList) (.typecast :: type.tokens) :=
    hcolons.append (lexes_cast type)
  exact ⟨hstart.append _, _, hlex.append rfl rfl hcast,
    hout.map (fun h => h.append_right _) fun hreads => hreads.cast type⟩

/-!
## Lists
-/

def ItemsText (conforming : Bool) (env : Nat -> Option Tree) (text : List Char)
    (items : List Tree) : Prop :=
  exists tokens, Lexes conforming text tokens ∧
    Outcome tokens (Tree.allQualified items) (ReadsItems env tokens items)

theorem WholeText.lastItem {text : List Char} {t : Tree} (h : WholeText conforming env text t) :
    ItemsText conforming env text [t] := by
  rcases h with ⟨tokens, hlex, hout⟩
  have hall : Tree.allQualified [t] = t.isQualified := Bool.and_true _
  refine ⟨tokens, hlex, ?_⟩
  rw [hall]
  exact hout.imp Reads.lastItem

theorem WholeText.consItem {text rest : List Char} {t : Tree} {items : List Tree}
    (h : WholeText conforming env text t) (hrest : ItemsText conforming env rest items) :
    ItemsText conforming env (text ++ ',' :: rest) (t :: items) := by
  rcases h with ⟨tokens, hlex, hout⟩
  rcases hrest with ⟨restTokens, hlexRest, houtRest⟩
  have hcomma : Opens conforming [','] [.mark ','] := rfl
  refine ⟨_, hlex.append rfl rfl (hcomma.append hlexRest), ?_⟩
  refine hout.map₂ houtRest (Refused.left _ _) (Refused.right _ _) ?_
  exact fun hreads hreadsRest => hreads.consItem hreadsRest

theorem ItemsText.space {text : List Char} {items : List Tree}
    (h : ItemsText conforming env text items) :
    ItemsText conforming env (' ' :: text) items := by
  rcases h with ⟨tokens, hlex, hout⟩
  have hspace : Opens conforming [' '] [] := rfl
  exact ⟨tokens, hspace.append hlex, hout⟩

def commaTail (texts : List (List Char)) : List Char :=
  (texts.map fun text => ", ".toList ++ text).flatten

theorem itemsText_commas {text : List Char} {t : Tree} (h : WholeText conforming env text t)
    {texts : List (List Char)} {ts : List Tree}
    (hrest : List.Forall₂ (WholeText conforming env) texts ts) :
    ItemsText conforming env (text ++ commaTail texts) (t :: ts) := by
  induction hrest generalizing text t with
  | nil => simpa [commaTail] using h.lastItem
  | cons hnext _ ih =>
      have hitems := h.consItem (ih hnext).space
      simpa [commaTail] using hitems

theorem ItemsText.array {text : List Char} {items : List Tree}
    (h : ItemsText conforming env text items) (hne : items ≠ []) :
    AtomText conforming env ("ARRAY[".toList ++ (text ++ [']'])) (.array items) := by
  rcases h with ⟨tokens, hlex, hout⟩
  have hopen : Opens conforming "ARRAY[".toList [.word "array", .mark '['] := rfl
  exact ⟨Or.inl rfl, _, (lexes_enclosed hopen hlex (Or.inr rfl)).lexes,
    hout.map (Refused.enclosed _ _) fun hreads => hreads.array hne⟩

/-!
## Calls
-/

/-- Whether a name and so many arguments are written and read as a call of that name. -/
def isCall (name : String) (count : Nat) : Bool :=
  isPlainAlias name && !reservedWords.contains name && takes name count

theorem isCall_iff {name : String} {count : Nat} :
    isCall name count = true <->
      isPlainAlias name = true ∧ name ∉ reservedWords ∧ takes name count = true := by
  simp [isCall, and_assoc]

theorem ItemsText.call {text : List Char} {items : List Tree}
    (h : ItemsText conforming env text items) (name : String)
    (hcall : isCall name items.length = true) :
    AtomText conforming env (name.toList ++ '(' :: (text ++ [')'])) (.call name items) := by
  rcases h with ⟨tokens, hlex, hout⟩
  rcases isCall_iff.mp hcall with ⟨hplain, hname, htakes⟩
  have htokens := lexes_enclosed (opens_plain hplain (Or.inr rfl)) hlex (Or.inl rfl)
  refine ⟨(startable_plain hplain).append _, _, ?_,
    hout.map (Refused.enclosed [.word name, .mark '('] _) fun hreads => hreads.call hname htakes⟩
  simpa using htokens.lexes

theorem atomText_call_nil {name : String} (hcall : isCall name 0 = true) :
    AtomText conforming env (name.toList ++ ['(', ')']) (.call name []) := by
  have hclose : Opens conforming [')'] [.mark ')'] := rfl
  rcases isCall_iff.mp hcall with ⟨hplain, hname, htakes⟩
  have htokens := Lexing.feed_of_append (opens_plain hplain (Or.inr rfl)) hclose
  refine ⟨(startable_plain hplain).append _, _, ?_,
    .of_reads (readsAtom_call_nil hname htakes)⟩
  simpa using Opens.lexes htokens

/-!
## Operators
-/

def spaced (symbol : String) : List Char := ' ' :: (symbol.toList ++ [' '])

def tightSymbols : List String := ["+", "-", "*", "/"]

def looseSymbols : List String :=
  ["OR", "AND", "=", "<>", "<", "<=", ">", ">=", "LIKE", "||", "&&", "~*"]

theorem exists_loose {op : String} (h : op ∈ looseSymbols) :
    exists token level, Opens conforming (spaced op) [token] ∧
      binaryLevel? token = some (op, level) ∧ 0 < level ∧ level ≤ Level.other := by
  simp only [looseSymbols, List.mem_cons, List.not_mem_nil, or_false] at h
  rcases h with rfl | rfl | rfl | rfl | rfl | rfl | rfl | rfl | rfl | rfl | rfl | rfl
  · exact ⟨.word "or", Level.or, rfl, rfl, by decide, by decide⟩
  · exact ⟨.word "and", Level.and, rfl, rfl, by decide, by decide⟩
  · exact ⟨.operator "=", Level.comparison, rfl, rfl, by decide, by decide⟩
  · exact ⟨.operator "<>", Level.comparison, rfl, rfl, by decide, by decide⟩
  · exact ⟨.operator "<", Level.comparison, rfl, rfl, by decide, by decide⟩
  · exact ⟨.operator "<=", Level.comparison, rfl, rfl, by decide, by decide⟩
  · exact ⟨.operator ">", Level.comparison, rfl, rfl, by decide, by decide⟩
  · exact ⟨.operator ">=", Level.comparison, rfl, rfl, by decide, by decide⟩
  · exact ⟨.word "like", Level.like, rfl, rfl, by decide, by decide⟩
  · exact ⟨.operator "||", Level.other, rfl, rfl, by decide, by decide⟩
  · exact ⟨.operator "&&", Level.other, rfl, rfl, by decide, by decide⟩
  · exact ⟨.operator "~*", Level.other, rfl, rfl, by decide, by decide⟩

theorem exists_tight {op : String} (h : op ∈ tightSymbols) :
    exists token level, Opens conforming (spaced op) [token] ∧
      binaryLevel? token = some (op, level) ∧ Level.other < level := by
  simp only [tightSymbols, List.mem_cons, List.not_mem_nil, or_false] at h
  rcases h with rfl | rfl | rfl | rfl
  · exact ⟨.operator "+", Level.sum, rfl, rfl, by decide⟩
  · exact ⟨.operator "-", Level.sum, rfl, rfl, by decide⟩
  · exact ⟨.operator "*", Level.product, rfl, rfl, by decide⟩
  · exact ⟨.operator "/", Level.product, rfl, rfl, by decide⟩

theorem AtomText.loose {left right : List Char} {l r : Tree}
    (hleft : AtomText conforming env left l) {op : String} (hop : op ∈ looseSymbols)
    (hright : AtomText conforming env right r) :
    SpineText conforming env 0 (left ++ (spaced op ++ right)) ⟨l, [.binary op r]⟩ := by
  rcases hleft with ⟨hstart, leftTokens, hlexLeft, houtLeft⟩
  rcases hright with ⟨-, rightTokens, hlexRight, houtRight⟩
  rcases exists_loose hop with ⟨token, level, hopens, htoken, hpos, hlevel⟩
  refine ⟨hstart.append _, _, hlexLeft.append rfl rfl (hopens.append hlexRight), ?_⟩
  refine houtLeft.map₂ houtRight (Refused.left _ _) (Refused.right _ _) ?_
  intro hreadsLeft hreadsRight
  have hoperand := hreadsRight.readsOperand
  exact (hreadsLeft.readsSpine hlevel).snoc htoken hlevel hoperand (Or.inl hpos)

theorem AtomText.tight {left right : List Char} {l r : Tree}
    (hleft : AtomText conforming env left l) {op : String} (hop : op ∈ tightSymbols)
    (hright : AtomText conforming env right r) :
    SpineText conforming env 0 (left ++ (spaced op ++ right)) ⟨.binary op l r, []⟩ := by
  rcases hleft with ⟨hstart, leftTokens, hlexLeft, houtLeft⟩
  rcases hright with ⟨-, rightTokens, hlexRight, houtRight⟩
  rcases exists_tight hop with ⟨token, level, hopens, htoken, hlevel⟩
  refine ⟨hstart.append _, _, hlexLeft.append rfl rfl (hopens.append hlexRight), ?_⟩
  refine houtLeft.map₂ houtRight (Refused.left _ _) (Refused.right _ _) ?_
  exact fun hreadsLeft hreadsRight => hreadsLeft.tight htoken hlevel hreadsRight

theorem SpineText.concat {left right : List Char} {spine : Spine} {r : Tree}
    (hleft : SpineText conforming env Level.other left spine)
    (hright : AtomText conforming env right r) :
    SpineText conforming env Level.other (left ++ (spaced "||" ++ right))
      (spine.snoc (.binary "||" r)) := by
  rcases hleft with ⟨hstart, leftTokens, hlexLeft, houtLeft⟩
  rcases hright with ⟨-, rightTokens, hlexRight, houtRight⟩
  have hopens : Opens conforming (spaced "||") [.operator "||"] := rfl
  have htoken : binaryLevel? (.operator "||") = some ("||", Level.other) := rfl
  refine ⟨hstart.append _, _, hlexLeft.append rfl rfl (hopens.append hlexRight), ?_⟩
  rw [Spine.tree_snoc]
  refine houtLeft.map₂ houtRight (Refused.left _ _) (Refused.right _ _) ?_
  intro hreadsLeft hreadsRight
  have hoperand := hreadsRight.readsOperand
  exact hreadsLeft.snoc htoken (Nat.le_refl _) hoperand (Or.inr ⟨rfl, rfl⟩)

theorem SpineText.arrow {left right : List Char} {spine : Spine} {r : Tree}
    (hleft : SpineText conforming env Level.other left spine) (asText : Bool)
    (hright : OperandText conforming env right r) :
    SpineText conforming env Level.other (left ++ ((arrowSymbol asText).toList ++ right))
      (spine.snoc (.binary (arrowSymbol asText) r)) := by
  rcases hleft with ⟨hstart, leftTokens, hlexLeft, houtLeft⟩
  rcases hright with ⟨hstartRight, rightTokens, hlexRight, houtRight⟩
  have htoken : binaryLevel? (.operator (arrowSymbol asText)) =
      some (arrowSymbol asText, Level.other) := by
    cases asText <;> rfl
  refine ⟨hstart.append _, _, hlexLeft.arrow asText hstartRight hlexRight, ?_⟩
  rw [Spine.tree_snoc]
  refine houtLeft.map₂ houtRight (Refused.left _ _) (Refused.right _ _) ?_
  exact fun hreadsLeft hreadsRight =>
    hreadsLeft.snoc htoken (Nat.le_refl _) hreadsRight (Or.inr ⟨rfl, rfl⟩)

/-- An arrow between an operand and a spine takes the head of the spine only. -/
theorem AtomText.arrow {left right : List Char} {l : Tree} {spine : Spine}
    (hleft : AtomText conforming env left l) (asText : Bool)
    (hright : SpineText conforming env 0 right spine) :
    SpineText conforming env 0 (left ++ ((arrowSymbol asText).toList ++ right))
      ⟨l, .binary (arrowSymbol asText) spine.head :: spine.tails⟩ := by
  rcases hleft with ⟨hstart, leftTokens, hlexLeft, houtLeft⟩
  rcases hright with ⟨hstartRight, rightTokens, hlexRight, houtRight⟩
  have hqualified :
      Tree.isQualified (Spine.tree ⟨l, .binary (arrowSymbol asText) spine.head :: spine.tails⟩) =
        (l.isQualified && spine.tree.isQualified) := by
    simp [Spine.tree, isQualified_foldl, Tail.after, Tree.isQualified, Bool.and_assoc]
  refine ⟨hstart.append _, _, hlexLeft.arrow asText hstartRight hlexRight, ?_⟩
  rw [hqualified]
  refine houtLeft.map₂ houtRight (Refused.left _ _) (Refused.right _ _) ?_
  exact fun hreadsLeft hreadsRight => hreadsLeft.arrow asText hreadsRight

theorem WholeText.not {text : List Char} {t : Tree} (h : WholeText conforming env text t) :
    SpineText conforming env 0 ("NOT (".toList ++ (text ++ [')'])) ⟨.unary "NOT" t, []⟩ := by
  rcases h with ⟨tokens, hlex, hout⟩
  have hopen : Opens conforming "NOT (".toList [.word "not", .mark '('] := rfl
  exact ⟨Or.inl rfl, _, (lexes_enclosed hopen hlex (Or.inl rfl)).lexes,
    hout.map (Refused.enclosed _ _) Reads.not⟩

def nullTest (negated : Bool) : String := if negated then " IS NOT NULL" else " IS NULL"

theorem AtomText.isNull {text : List Char} {t : Tree} (h : AtomText conforming env text t)
    (negated : Bool) :
    SpineText conforming env 0 (text ++ (nullTest negated).toList) ⟨t, [.isNull negated]⟩ := by
  rcases h with ⟨hstart, tokens, hlex, hout⟩
  have htest : Lexes conforming (nullTest negated).toList (nullWords negated) := by
    cases negated with
    | false => exact ⟨[.word "is"], _, _, rfl, closes_word _ _, rfl⟩
    | true => exact ⟨[.word "is", .word "not"], _, _, rfl, closes_word _ _, rfl⟩
  refine ⟨hstart.append _, _, ?_,
    hout.map (fun h => h.append_right _) fun hreads => hreads.isNull negated⟩
  cases negated with
  | false => exact hlex.append rfl rfl htest
  | true => exact hlex.append rfl rfl htest

def quantifier (negated : Bool) : String := if negated then " <> ALL(" else " = ANY("

def quantifierOp (negated : Bool) : String := if negated then "<>" else "="

theorem AtomText.quantified {left right : List Char} {l r : Tree}
    (hleft : AtomText conforming env left l) (negated : Bool)
    (hright : WholeText conforming env right r) :
    SpineText conforming env 0 (left ++ ((quantifier negated).toList ++ (right ++ [')'])))
      ⟨l, [.quantified (quantifierOp negated) negated r]⟩ := by
  rcases hleft with ⟨hstart, leftTokens, hlexLeft, houtLeft⟩
  rcases hright with ⟨rightTokens, hlexRight, houtRight⟩
  have hopen : Opens conforming (quantifier negated).toList
      [.operator (quantifierOp negated), quantifierWord negated, .mark '('] := by
    cases negated <;> rfl
  have htoken : binaryLevel? (.operator (quantifierOp negated)) =
      some (quantifierOp negated, Level.comparison) := by
    cases negated <;> rfl
  have htail := (lexes_enclosed hopen hlexRight (Or.inl rfl)).lexes
  have hout := houtLeft.map₂ houtRight (fun h => h.append_right _)
    (fun h => (h.enclosed [.operator (quantifierOp negated), quantifierWord negated, .mark '(']
      (.mark ')')).append_left _)
    fun hreadsLeft hreadsRight => hreadsLeft.quantified htoken negated hreadsRight
  refine ⟨hstart.append _, _, ?_, hout⟩
  cases negated with
  | false => exact hlexLeft.append rfl rfl htail
  | true => exact hlexLeft.append rfl rfl htail

end Server
end TypedQuery
