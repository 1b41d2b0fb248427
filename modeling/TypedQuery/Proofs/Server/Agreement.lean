import TypedQuery.Proofs.Server.Readable

/-!
# Read trees and intended trees

The tree that is read from a text has as many nodes as the one that is meant.  The two are equal
exactly when every arrow of the intended tree has a right operand that binds tighter than it.
-/

namespace TypedQuery
namespace Server
namespace Tree

mutual

def size : Tree -> Nat
  | call _ args => 1 + sizes args
  | array items => 1 + sizes items
  | unary _ arg => 1 + arg.size
  | binary _ left right => 1 + left.size + right.size
  | isNull _ arg => 1 + arg.size
  | quantified _ _ left right => 1 + left.size + right.size
  | cast arg _ => 1 + arg.size
  | subscript arg index => 1 + arg.size + index.size
  | _ => 1

def sizes : List Tree -> Nat
  | [] => 0
  | t :: rest => t.size + sizes rest

end

/-- Whether an arrow takes the tree as its right operand when it is written without
parentheses. -/
def isTight : Tree -> Bool
  | binary op _ _ => tightSymbols.contains op
  | isNull _ _ => false
  | quantified _ _ _ _ => false
  | _ => true

def isArrow (op : String) : Bool := op == "->" || op == "->>"

mutual

/-- Whether every arrow of the tree has a tight right operand. -/
def arrowsTight : Tree -> Bool
  | call _ args => allArrowsTight args
  | array items => allArrowsTight items
  | unary _ arg => arg.arrowsTight
  | binary op left right =>
      left.arrowsTight && right.arrowsTight && (!isArrow op || right.isTight)
  | isNull _ arg => arg.arrowsTight
  | quantified _ _ left right => left.arrowsTight && right.arrowsTight
  | cast arg _ => arg.arrowsTight
  | subscript arg index => arg.arrowsTight && index.arrowsTight
  | _ => true

def allArrowsTight : List Tree -> Bool
  | [] => true
  | t :: rest => t.arrowsTight && allArrowsTight rest

end

/-!
## Agreement
-/

/-- The tree has the size and the qualifiers of the intended one, and is the same exactly when all
arrows of the intended one have tight right operands. -/
structure Agrees (t intended : Tree) : Prop where
  size_eq : t.size = intended.size
  eq_iff : t = intended <-> intended.arrowsTight = true
  qualified_eq : t.isQualified = intended.isQualified

namespace Agrees

attribute [local simp] size arrowsTight isQualified

theorem refl {t : Tree} (h : t.arrowsTight = true) : t.Agrees t :=
  ⟨rfl, ⟨fun _ => h, fun _ => rfl⟩, rfl⟩

theorem unary {t intended : Tree} (h : t.Agrees intended) (op : String) :
    (Tree.unary op t).Agrees (Tree.unary op intended) := by
  constructor
  · simp [h.size_eq]
  · simp [h.eq_iff]
  · simp [h.qualified_eq]

theorem isNull {t intended : Tree} (h : t.Agrees intended) (negated : Bool) :
    (Tree.isNull negated t).Agrees (Tree.isNull negated intended) := by
  constructor
  · simp [h.size_eq]
  · simp [h.eq_iff]
  · simp [h.qualified_eq]

theorem cast {t intended : Tree} (h : t.Agrees intended) (type : List Token) :
    (Tree.cast t type).Agrees (Tree.cast intended type) := by
  constructor
  · simp [h.size_eq]
  · simp [h.eq_iff]
  · simp [h.qualified_eq]

theorem binary {l r left right : Tree} (hleft : l.Agrees left) (hright : r.Agrees right)
    {op : String} (hop : isArrow op = false) :
    (Tree.binary op l r).Agrees (Tree.binary op left right) := by
  constructor
  · simp [hleft.size_eq, hright.size_eq]
  · simp [hleft.eq_iff, hright.eq_iff, hop]
  · simp [hleft.qualified_eq, hright.qualified_eq]

theorem arrow {l r left right : Tree} (hleft : l.Agrees left) (hright : r.Agrees right)
    (htight : right.isTight = true) (op : String) :
    (Tree.binary op l r).Agrees (Tree.binary op left right) := by
  constructor
  · simp [hleft.size_eq, hright.size_eq]
  · simp [hleft.eq_iff, hright.eq_iff, htight]
  · simp [hleft.qualified_eq, hright.qualified_eq]

theorem quantified {l r left right : Tree} (hleft : l.Agrees left) (hright : r.Agrees right)
    (op : String) (all : Bool) :
    (Tree.quantified op all l r).Agrees (Tree.quantified op all left right) := by
  constructor
  · simp [hleft.size_eq, hright.size_eq]
  · simp [hleft.eq_iff, hright.eq_iff]
  · simp [hleft.qualified_eq, hright.qualified_eq]

theorem subscript {t i intended index : Tree} (h : t.Agrees intended) (hindex : i.Agrees index) :
    (Tree.subscript t i).Agrees (Tree.subscript intended index) := by
  constructor
  · simp [h.size_eq, hindex.size_eq]
  · simp [h.eq_iff, hindex.eq_iff]
  · simp [h.qualified_eq, hindex.qualified_eq]

end Agrees

theorem sizes_eq {ts intended : List Tree} (h : List.Forall₂ Agrees ts intended) :
    sizes ts = sizes intended := by
  induction h with
  | nil => rfl
  | cons hfirst _ ih => rw [sizes, sizes, hfirst.size_eq, ih]

theorem eq_iff_allArrowsTight {ts intended : List Tree} (h : List.Forall₂ Agrees ts intended) :
    ts = intended <-> allArrowsTight intended = true := by
  induction h with
  | nil => simp [allArrowsTight]
  | cons hfirst _ ih =>
      rw [List.cons_eq_cons, allArrowsTight, Bool.and_eq_true, hfirst.eq_iff, ih]

theorem allQualified_eq {ts intended : List Tree} (h : List.Forall₂ Agrees ts intended) :
    allQualified ts = allQualified intended := by
  induction h with
  | nil => rfl
  | cons hfirst _ ih => rw [allQualified, allQualified, hfirst.qualified_eq, ih]

theorem Agrees.call {ts intended : List Tree} (h : List.Forall₂ Agrees ts intended)
    (name : String) : (Tree.call name ts).Agrees (Tree.call name intended) := by
  constructor
  · simp [size, sizes_eq h]
  · simp [arrowsTight, eq_iff_allArrowsTight h]
  · simp [isQualified, allQualified_eq h]

end Tree

/-!
## Spines
-/

structure Spine.Presents (s : Spine) (intended : Tree) : Prop where
  agrees : s.tree.Agrees intended
  tails_eq_nil_iff : s.tails = [] <-> intended.isTight = true

namespace Spine

theorem presents_operand {t intended : Tree} (h : t.Agrees intended)
    (htight : intended.isTight = true) : Presents ⟨t, []⟩ intended := by
  constructor
  · exact h
  · simp [htight]

theorem presents_tail {t intended : Tree} {tail : Tail} (h : (tail.after t).Agrees intended)
    (htight : intended.isTight = false) : Presents ⟨t, [tail]⟩ intended := by
  constructor
  · exact h
  · simp [htight]

theorem Presents.snoc_arrow {s : Spine} {r left right : Tree} (h : s.Presents left)
    (hright : r.Agrees right) (htight : right.isTight = true) (asText : Bool) :
    (s.snoc (.binary (arrowSymbol asText) r)).Presents
      (.binary (arrowSymbol asText) left right) := by
  constructor
  · rw [tree_snoc]
    exact h.agrees.arrow hright htight _
  · have hloose : arrowSymbol asText ∉ tightSymbols := by
      cases asText <;> decide
    simp [snoc, Tree.isTight, hloose]

theorem size_le_foldl (tails : List Tail) (t : Tree) :
    t.size ≤ (tails.foldl Tail.after t).size := by
  induction tails generalizing t with
  | nil => exact Nat.le_refl _
  | cons tail rest ih =>
      refine Nat.le_trans ?_ (ih (tail.after t))
      cases tail <;> simp only [Tail.after, Tree.size] <;> omega

theorem size_foldl_congr (tails : List Tail) {t u : Tree} {extra : Nat}
    (h : t.size = u.size + extra) :
    (tails.foldl Tail.after t).size = (tails.foldl Tail.after u).size + extra := by
  induction tails generalizing t u with
  | nil => exact h
  | cons tail rest ih =>
      apply ih
      cases tail <;> simp only [Tail.after, Tree.size] <;> omega

/-- An arrow in front of a spine with operators after its head is not what is read. -/
theorem foldl_ne_arrow {tails : List Tail} (hne : tails ≠ []) (op : String)
    {l head left right : Tree} (hsize : l.size = left.size) :
    tails.foldl Tail.after (.binary op l head) ≠ .binary op left right := by
  intro heq
  rw [<- List.dropLast_concat_getLast hne, List.foldl_append] at heq
  have hle := size_le_foldl tails.dropLast (.binary op l head)
  simp only [List.foldl_cons, List.foldl_nil] at heq
  cases hlast : tails.getLast hne with
  | binary op' r =>
      rw [hlast] at heq
      injection heq with _ hleft _
      -- The last operator has the whole arrow on its left, which is larger than `left`.
      rw [hleft] at hle
      simp only [Tree.size] at hle
      omega
  | isNull negated =>
      rw [hlast] at heq
      cases heq
  | quantified op' all r =>
      rw [hlast] at heq
      cases heq

/-- A spine after an arrow: the arrow takes its head only, so that what is read is what is meant
exactly when there is nothing after the head. -/
theorem Presents.arrow {l left right : Tree} {s : Spine} (hleft : l.Agrees left)
    (hright : s.Presents right) (asText : Bool) :
    Presents ⟨l, .binary (arrowSymbol asText) s.head :: s.tails⟩
      (.binary (arrowSymbol asText) left right) := by
  have harrow : Tree.isArrow (arrowSymbol asText) = true := by
    cases asText <;> rfl
  have hloose : arrowSymbol asText ∉ tightSymbols := by
    cases asText <;> decide
  have htree : Spine.tree ⟨l, .binary (arrowSymbol asText) s.head :: s.tails⟩ =
      s.tails.foldl Tail.after (.binary (arrowSymbol asText) l s.head) := rfl
  constructor
  · rw [htree]
    constructor
    · have hfold : (s.tails.foldl Tail.after (.binary (arrowSymbol asText) l s.head)).size =
          s.tree.size + (1 + l.size) := by
        apply size_foldl_congr s.tails
        simp only [Tree.size]
        omega
      rw [hfold, hright.agrees.size_eq, hleft.size_eq]
      simp only [Tree.size]
      omega
    · -- With operators after the head the two trees differ at the root.
      by_cases htails : s.tails = []
      · have htight := hright.tails_eq_nil_iff.mp htails
        have hhead : s.tree = s.head := by
          rw [tree, htails]
          rfl
        rw [htails, List.foldl_nil, Tree.binary.injEq, <- hhead, hleft.eq_iff,
          hright.agrees.eq_iff]
        simp [Tree.arrowsTight, htight]
      · have htight : right.isTight = false := by
          rw [<- Bool.not_eq_true, <- hright.tails_eq_nil_iff]
          exact htails
        constructor
        · intro heq
          exact absurd heq (foldl_ne_arrow htails _ hleft.size_eq)
        · intro h
          simp [Tree.arrowsTight, harrow, htight] at h
    · have hspine : s.tree.isQualified = (s.head.isQualified && s.tails.all Tail.isQualified) :=
        isQualified_foldl s.tails s.head
      rw [isQualified_foldl, Tree.isQualified, Tree.isQualified, Bool.and_assoc, <- hspine,
        hleft.qualified_eq, hright.agrees.qualified_eq]
  · simp [Tree.isTight, hloose]

end Spine

end Server
end TypedQuery
