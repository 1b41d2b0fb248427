import TypedQuery.Proofs.Fragment.Placeholder
import TypedQuery.Proofs.Server.Agreement

/-!
# Literals

A value has a tree of its own: a keyword, a number, a text, or an array of such trees.  The
literal of the value reads as this tree, wherever it stands.
-/

namespace TypedQuery

open Server

def integerTree : Int -> Tree
  | .ofNat n => .number n
  | .negSucc n => .unary "-" (.number (n + 1))

namespace Value

def quotedText : Value -> String
  | float x => Number.FloatLayout.sqlLiteral.doubleText x.widen
  | double x => Number.FloatLayout.sqlLiteral.doubleText x
  | decimal d => d.toText
  | text s => s
  | enum label => label
  | uuid u => u.toText
  | date d => d.toText
  | time t => t.toText
  | timestamp t => t.toText
  | interval i => i.toText
  | bytes b => "\\x" ++ String.ofList (Hex.encode b)
  | json document => document.toText
  | array _ => "\x7b\x7d"
  | _ => ""

mutual

def tree : Value -> Tree
  | null => .keyword "null"
  | bool b => .keyword (if b then "true" else "false")
  | int n => integerTree n.toInt
  | bigint n => integerTree n.toInt
  | array (item :: rest) => .array (trees (item :: rest))
  | v => .string v.quotedText

def trees : List Value -> List Tree
  | [] => []
  | item :: rest => item.tree :: trees rest

end

def isInteger : Value -> Bool
  | int _ => true
  | bigint _ => true
  | _ => false

end Value

def Typed.castType? (v : Typed) : Option SqlType :=
  match v.type, v.value with
  | .null, .array _ => some (.array .text)
  | .null, _ => none
  | type, _ => some type

def Typed.tree (v : Typed) : Tree :=
  if v.isBound then
    match v.castType? with
    | some type => .cast v.value.tree type.tokens
    | none => v.value.tree
  else v.value.tree

/-!
## Trees of values
-/

/-- An arrow takes the tree as it is, and nothing in the tree is misread or refused. -/
structure Server.Tree.Inert (t : Tree) : Prop where
  isTight : t.isTight = true
  arrowsTight : t.arrowsTight = true
  isQualified : t.isQualified = true

theorem inert_integerTree (n : Int) : (integerTree n).Inert := by
  cases n <;> exact ⟨rfl, rfl, rfl⟩

namespace Value

mutual

theorem inert_tree (v : Value) : v.tree.Inert := by
  cases v with
  | int n => exact inert_integerTree n.toInt
  | bigint n => exact inert_integerTree n.toInt
  | array items =>
      cases items with
      | nil => exact ⟨rfl, rfl, rfl⟩
      | cons item rest =>
          rcases inert_trees (item :: rest) with ⟨harrows, hqualified⟩
          rw [tree]
          exact ⟨rfl, harrows, hqualified⟩
  | _ => exact ⟨rfl, rfl, rfl⟩

theorem inert_trees (items : List Value) :
    Tree.allArrowsTight (trees items) = true ∧ Tree.allQualified (trees items) = true := by
  cases items with
  | nil => exact ⟨rfl, rfl⟩
  | cons item rest =>
      have hitem := inert_tree item
      rcases inert_trees rest with ⟨harrows, hqualified⟩
      rw [trees, Tree.allArrowsTight, Tree.allQualified, hitem.arrowsTight, hitem.isQualified,
        harrows, hqualified]
      exact ⟨rfl, rfl⟩

end

end Value

namespace Typed

theorem inert_tree (v : Typed) : v.tree.Inert := by
  have hvalue := v.value.inert_tree
  unfold tree
  split
  · split
    · exact ⟨rfl, hvalue.arrowsTight, hvalue.isQualified⟩
    · exact hvalue
  · exact hvalue

theorem agrees_tree (v : Typed) : v.tree.Agrees v.tree :=
  Tree.Agrees.refl v.inert_tree.arrowsTight

end Typed

/-!
## Texts of values
-/

namespace Server

variable {conforming : Bool} {env : Nat -> Option Tree}

theorem atomText_quoteLiteral (text : String) :
    AtomText conforming env (Text.quoteLiteral text).toList (.string text) := by
  refine ⟨?_, _, lexes_quoteLiteral text, .of_reads (readsAtom_string text)⟩
  unfold Text.quoteLiteral
  dsimp only
  split
  · rw [String.toList_append, String.toList_append]
    exact Or.inl rfl
  · rw [String.toList_append, String.toList_append]
    exact Or.inl rfl

theorem atomText_keyword {word : String} {name : String}
    (hlex : Lexes conforming word.toList [.word name]) (hstart : Startable word.toList)
    (hname : ["null", "true", "false"].contains name = true) :
    AtomText conforming env word.toList (.keyword name) :=
  ⟨hstart, _, hlex, .of_reads (readsAtom_keyword hname)⟩

theorem operandText_integer (n : Int) :
    OperandText conforming env (toString n).toList (integerTree n) := by
  cases n with
  | ofNat n =>
      rw [show toString (Int.ofNat n) = toString n from rfl, Number.toList_toString]
      exact ⟨startable_digits n, _, lexes_digits n, .of_reads (readsAtom_number n).readsOperand⟩
  | negSucc n =>
      have htext : (toString (Int.negSucc n)).toList = '-' :: Nat.toDigits 10 (n + 1) := by
        rw [show toString (Int.negSucc n) = "-" ++ toString (n + 1) from rfl,
          String.toList_append, Number.toList_toString]
        rfl
      rw [htext]
      exact ⟨startable_minus_digits (n + 1), _, lexes_minus_digits (n + 1),
        .of_reads (readsOperand_minus (n + 1))⟩

theorem OperandText.whole {text : List Char} {t : Tree}
    (h : OperandText conforming env text t) : WholeText conforming env text t :=
  (h.spine (Nat.zero_le _)).whole

end Server

namespace Value

variable {conforming : Bool} {env : Nat -> Option Tree}

theorem literal_eq_quoteLiteral {v : Value} (h : v.tree = .string v.quotedText) :
    v.literal = Text.quoteLiteral v.quotedText := by
  cases v with
  | null => cases h
  | bool b => cases h
  | int n => cases hn : n.toInt <;> simp [tree, integerTree, hn] at h
  | bigint n => cases hn : n.toInt <;> simp [tree, integerTree, hn] at h
  | array items =>
      cases items with
      | nil =>
          rw [literal, quotedText]
          decide
      | cons item rest => simp [tree] at h
  | _ => simp only [literal, quotedText]

mutual

theorem literal_text (v : Value) :
    OperandText conforming env v.literal.toList v.tree ∧
      (v.isInteger = false -> AtomText conforming env v.literal.toList v.tree) := by
  by_cases hquoted : v.tree = .string v.quotedText
  · rw [hquoted, literal_eq_quoteLiteral hquoted]
    exact ⟨(atomText_quoteLiteral _).operand, fun _ => atomText_quoteLiteral _⟩
  · have hatom : v.isInteger = false ->
        AtomText conforming env v.literal.toList v.tree := by
      intro hinteger
      cases v with
      | null =>
          rw [literal, tree]
          exact atomText_keyword ⟨[], _, _, rfl, closes_word _ _, rfl⟩ (Or.inl rfl) rfl
      | bool b =>
          rw [literal, tree]
          cases b with
          | false =>
              exact atomText_keyword ⟨[], _, _, rfl, closes_word _ _, rfl⟩ (Or.inl rfl) rfl
          | true =>
              exact atomText_keyword ⟨[], _, _, rfl, closes_word _ _, rfl⟩ (Or.inl rfl) rfl
      | array items =>
          have hitems := literal_texts items
          cases items with
          | nil => simp [tree] at hquoted
          | cons item rest =>
              have harray := (hitems (List.cons_ne_nil _ _)).array (List.cons_ne_nil _ _)
              rw [literal, tree]
              simpa using harray
      | int n => cases hinteger
      | bigint n => cases hinteger
      | _ => simp [tree] at hquoted
    refine ⟨?_, hatom⟩
    cases hinteger : v.isInteger with
    | false => exact (hatom hinteger).operand
    | true =>
        cases v with
        | int n =>
            rw [literal, tree]
            exact operandText_integer n.toInt
        | bigint n =>
            rw [literal, tree]
            exact operandText_integer n.toInt
        | _ => cases hinteger

theorem literal_texts (items : List Value) (hne : items ≠ []) :
    ItemsText conforming env (joinComma (itemLiterals items)).toList (trees items) := by
  cases items with
  | nil => exact absurd rfl hne
  | cons item rest =>
      have hfirst := (literal_text item).1.whole
      have hrest := literal_texts rest
      cases rest with
      | nil =>
          rw [itemLiterals, itemLiterals, joinComma, trees, trees]
          exact hfirst.lastItem
      | cons next more =>
          have hitems := hfirst.consItem (hrest (List.cons_ne_nil _ _))
          rw [itemLiterals, itemLiterals, joinComma, trees]
          · simpa [itemLiterals] using hitems
          · simp

end

theorem literal_of_inline {v : Value} {literal : String} (h : v.inlineLiteral? = some literal) :
    literal = v.literal := by
  cases v with
  | text s =>
      rw [inlineLiteral?] at h
      split at h
      · cases h
        rw [Value.literal]
      · cases h
  | null | bool _ | int _ | bigint _ =>
      cases h
      rw [Value.literal]
  | _ => cases h

theorem isInteger_of_bound {v : Value} (h : v.inlineLiteral? = none) : v.isInteger = false := by
  cases v with
  | int n => cases h
  | bigint n => cases h
  | _ => rfl

end Value

/-!
## Casts of values
-/

theorem castOf_toList (v : Typed) :
    (castOf v).toList =
      match v.castType? with
      | some type => ':' :: ':' :: type.cast.toList
      | none => [] := by
  rcases v with ⟨value, type⟩
  cases type with
  | null =>
      cases value with
      | array items =>
          simp only [castOf, Typed.castType?]
          decide
      | _ => rfl
  | _ =>
      simp only [castOf, Typed.castType?, String.toList_append]
      rfl

theorem atomText_castOf {conforming : Bool} {env : Nat -> Option Tree} {v : Typed}
    {text : List Char} (h : AtomText conforming env text v.value.tree)
    (hbound : v.isBound = true) :
    AtomText conforming env (text ++ (castOf v).toList) v.tree := by
  rw [castOf_toList, Typed.tree, hbound]
  cases v.castType? with
  | none => simpa using h
  | some type => exact h.cast type

end TypedQuery
