import Mathlib.Algebra.Group.Int.Defs
import TypedQuery.Expr.Fold

/-!
# Trees of integers

Integer constants under the four operations of arithmetic have a number.  Folding puts a constant
with this number in the place of a tree exactly when every operation in the tree has a result, and
the result is in the width of its operands.  An operation that fails is left, and so is every
operation above it, while all that stands below is folded.
-/

namespace TypedQuery

open Fold

/-!
## Numbers
-/

inductive IntegerOp where
  | add
  | sub
  | mul
  | div
deriving DecidableEq

namespace IntegerOp

def toBinary : IntegerOp -> BinaryOp
  | add => .add
  | sub => .sub
  | mul => .mul
  | div => .div

/-- The number that an operation gives; a quotient goes toward zero. -/
def apply : IntegerOp -> Int -> Int -> Int
  | add, a, b => a + b
  | sub, a, b => a - b
  | mul, a, b => a * b
  | div, a, b => a.tdiv b

def HasResult (op : IntegerOp) (b : Int) : Prop := op = div -> b ≠ 0

instance (op : IntegerOp) (b : Int) : Decidable (op.HasResult b) :=
  inferInstanceAs (Decidable (op = div -> b ≠ 0))

end IntegerOp

def InWidth (narrow : Bool) (n : Int) : Prop :=
  if narrow then -2 ^ 31 ≤ n ∧ n < 2 ^ 31 else -2 ^ 63 ≤ n ∧ n < 2 ^ 63

instance (narrow : Bool) (n : Int) : Decidable (InWidth narrow n) := by
  unfold InWidth
  infer_instance

inductive Value.IsInteger : Value -> Bool -> Int -> Prop
  | int (n : Int32) : IsInteger (.int n) true n.toInt
  | bigint (n : Int64) : IsInteger (.bigint n) false n.toInt

def BinaryOp.holds (op : BinaryOp) (a b : Int) : Bool :=
  match op with
  | eq => decide (a = b)
  | ne => decide (a ≠ b)
  | lt => decide (a < b)
  | lte => decide (a ≤ b)
  | gt => decide (b < a)
  | gte => decide (b ≤ a)
  | _ => false

/-!
## Trees
-/

/-- Integer constants, of whatever types they are declared, under operations. -/
inductive IntegerTree where
  | int (n : Int32) (type : SqlType)
  | bigint (n : Int64) (type : SqlType)
  | node (op : IntegerOp) (left right : IntegerTree)

namespace IntegerTree

def toExpr : IntegerTree -> Expr
  | int n type => .constant ⟨.int n, type⟩
  | bigint n type => .constant ⟨.bigint n, type⟩
  | node op left right => .binary op.toBinary left.toExpr right.toExpr

def isNarrow : IntegerTree -> Bool
  | int _ _ => true
  | bigint _ _ => false
  | node _ left right => left.isNarrow && right.isNarrow

def number : IntegerTree -> Int
  | int n _ => n.toInt
  | bigint n _ => n.toInt
  | node op left right => op.apply left.number right.number

/-- Every operation has a result, and the result is in the width of the operands. -/
def Fits : IntegerTree -> Prop
  | int _ _ => True
  | bigint _ _ => True
  | node op left right =>
      left.Fits ∧ right.Fits ∧ op.HasResult right.number ∧
        InWidth (left.isNarrow && right.isNarrow) (op.apply left.number right.number)

instance decidableFits : (t : IntegerTree) -> Decidable t.Fits
  | int _ _ => inferInstanceAs (Decidable True)
  | bigint _ _ => inferInstanceAs (Decidable True)
  | node op left right =>
      have := left.decidableFits
      have := right.decidableFits
      inferInstanceAs (Decidable (left.Fits ∧ right.Fits ∧ op.HasResult right.number ∧
        InWidth (left.isNarrow && right.isNarrow) (op.apply left.number right.number)))

def result (narrow : Bool) (n : Int) : Typed :=
  if narrow then ⟨.int (.ofInt n), .integer⟩ else ⟨.bigint (.ofInt n), .bigint⟩

/-- The tree with a constant in place of each part that fits. -/
def folded : IntegerTree -> Expr
  | int n type => .constant ⟨.int n, type⟩
  | bigint n type => .constant ⟨.bigint n, type⟩
  | node op left right =>
      if (node op left right).Fits then
        .constant (result (node op left right).isNarrow (node op left right).number)
      else .binary op.toBinary left.folded right.folded

inductive IsPart (part : IntegerTree) : IntegerTree -> Prop
  | whole : IsPart part part
  | left {op : IntegerOp} {l r : IntegerTree} (h : IsPart part l) : IsPart part (node op l r)
  | right {op : IntegerOp} {l r : IntegerTree} (h : IsPart part r) : IsPart part (node op l r)

theorem Fits.of_isPart {part t : IntegerTree} (hpart : part.IsPart t) (h : t.Fits) :
    part.Fits := by
  induction hpart with
  | whole => exact h
  | left _ ih => exact ih h.1
  | right _ ih => exact ih h.2.1

/-!
## Operations on two constants
-/

theorem isInteger_result {narrow : Bool} {n : Int} (h : InWidth narrow n) :
    (result narrow n).value.IsInteger narrow n := by
  cases narrow with
  | false =>
      have hn : (Int64.ofInt n).toInt = n := Int64.toInt_ofInt_of_le h.1 h.2
      have hinteger := Value.IsInteger.bigint (.ofInt n)
      rwa [hn] at hinteger
  | true =>
      have hn : (Int32.ofInt n).toInt = n := Int32.toInt_ofInt_of_le h.1 h.2
      have hinteger := Value.IsInteger.int (.ofInt n)
      rwa [hn] at hinteger

theorem int32?_eq (n : Int) : int32? n = if InWidth true n then some (.ofInt n) else none := rfl

theorem int64?_eq (n : Int) : int64? n = if InWidth false n then some (.ofInt n) else none := rfl

theorem int32?_of_int64? (n : Int) :
    ((int64? n).bind fun wide => int32? wide.toInt) =
      if InWidth true n then some (.ofInt n) else none := by
  rw [int64?_eq]
  by_cases hwide : InWidth false n
  · have hn : (Int64.ofInt n).toInt = n := Int64.toInt_ofInt_of_le hwide.1 hwide.2
    rw [if_pos hwide, Option.bind_some, hn, int32?_eq]
  · have hnarrow : ¬ InWidth true n := by
      intro h
      apply hwide
      have hlow : -2 ^ 31 ≤ n := h.1
      have hhigh : n < 2 ^ 31 := h.2
      constructor
      · omega
      · omega
    rw [if_neg hwide, if_neg hnarrow]
    rfl

theorem integerResult?_eq (op : IntegerOp) (a b : Int) :
    integerResult? op.toBinary a b = if op.HasResult b then some (op.apply a b) else none := by
  cases op with
  | div =>
      by_cases hb : b = 0
      · have hnone : ¬ IntegerOp.div.HasResult b := fun h => h rfl hb
        rw [if_neg hnone]
        exact if_pos hb
      · have hsome : IntegerOp.div.HasResult b := fun _ => hb
        rw [if_pos hsome]
        exact if_neg hb
  | _ => rfl

theorem integers_eq_bind (op : IntegerOp) (narrow : Bool) (a b : Int64) :
    integers op.toBinary narrow a b =
      (integerResult? op.toBinary a.toInt b.toInt).bind fun n =>
        if narrow then
          ((int64? n).bind fun wide => int32? wide.toInt).map fun m => ⟨.int m, .integer⟩
        else (int64? n).map fun m => ⟨.bigint m, .bigint⟩ := by
  have harithmetic : op.toBinary.isComparison = false := by cases op <;> rfl
  rw [integers, harithmetic, if_neg Bool.false_ne_true]
  cases integerResult? op.toBinary a.toInt b.toInt with
  | none => rfl
  | some n =>
      cases narrow with
      | false => cases hwide : int64? n <;> simp [hwide]
      | true =>
          cases hwide : int64? n with
          | none => simp [hwide]
          | some wide => cases hnarrow : int32? wide.toInt <;> simp [hwide, hnarrow]

theorem integers_eq (op : IntegerOp) (narrow : Bool) (a b : Int64) :
    integers op.toBinary narrow a b =
      if op.HasResult b.toInt ∧ InWidth narrow (op.apply a.toInt b.toInt) then
        some (result narrow (op.apply a.toInt b.toInt))
      else none := by
  rw [integers_eq_bind, integerResult?_eq]
  by_cases hresult : op.HasResult b.toInt
  · rw [if_pos hresult, Option.bind_some]
    generalize op.apply a.toInt b.toInt = n
    cases narrow with
    | false =>
        rw [if_neg Bool.false_ne_true, int64?_eq]
        by_cases hwidth : InWidth false n
        · rw [if_pos hwidth, if_pos ⟨hresult, hwidth⟩]
          rfl
        · rw [if_neg hwidth, if_neg fun h => hwidth h.2]
          rfl
    | true =>
        rw [if_pos rfl, int32?_of_int64?]
        by_cases hwidth : InWidth true n
        · rw [if_pos hwidth, if_pos ⟨hresult, hwidth⟩]
          rfl
        · rw [if_neg hwidth, if_neg fun h => hwidth h.2]
          rfl
  · rw [if_neg hresult, if_neg fun h => hresult h.1]
    rfl

theorem binary?_of_isInteger {l r : Typed} {ln rn : Bool} {a b : Int}
    (hl : l.value.IsInteger ln a) (hr : r.value.IsInteger rn b) (op : BinaryOp) :
    exists x y : Int64, x.toInt = a ∧ y.toInt = b ∧
      binary? op l r = integers op (ln && rn) x y := by
  rcases l with ⟨l, lt⟩
  rcases r with ⟨r, rt⟩
  cases hl with
  | int n =>
      cases hr with
      | int m => exact ⟨n.toInt64, m.toInt64, Int32.toInt_toInt64 n, Int32.toInt_toInt64 m, rfl⟩
      | bigint m => exact ⟨n.toInt64, m, Int32.toInt_toInt64 n, rfl, rfl⟩
  | bigint n =>
      cases hr with
      | int m => exact ⟨n, m.toInt64, rfl, Int32.toInt_toInt64 m, rfl⟩
      | bigint m => exact ⟨n, m, rfl, rfl, rfl⟩

theorem binaryNode_arithmetic {l r : Typed} {ln rn : Bool} {a b : Int}
    (hl : l.value.IsInteger ln a) (hr : r.value.IsInteger rn b) (op : IntegerOp) :
    binaryNode op.toBinary (.constant l) (.constant r) =
      if op.HasResult b ∧ InWidth (ln && rn) (op.apply a b) then
        .constant (result (ln && rn) (op.apply a b))
      else .binary op.toBinary (.constant l) (.constant r) := by
  rcases binary?_of_isInteger hl hr op.toBinary with ⟨x, y, rfl, rfl, heq⟩
  rw [binaryNode, heq, integers_eq]
  split
  · rename_i hfits
    split at hfits
    · cases hfits
      rename_i hwidth
      rw [if_pos hwidth]
    · cases hfits
  · rename_i hfails
    split at hfails
    · cases hfails
    · rename_i hwidth
      rw [if_neg hwidth]

theorem compared_of_order {op : BinaryOp} (hop : op.isComparison = true) {a b : Int}
    {order : Ordering} (hlt : (order == .lt) = decide (a < b))
    (heq : (order == .eq) = decide (a = b)) (hgt : (order == .gt) = decide (b < a)) :
    compared op order = some (boolean (op.holds a b)) := by
  cases op with
  | eq => rw [compared, heq, BinaryOp.holds]
  | ne =>
      rw [compared, BinaryOp.holds, decide_not, <- heq]
      rfl
  | lt => rw [compared, hlt, BinaryOp.holds]
  | lte =>
      rw [compared, BinaryOp.holds, decide_eq_decide.mpr Int.not_lt.symm, decide_not, <- hgt]
      rfl
  | gt => rw [compared, hgt, BinaryOp.holds]
  | gte =>
      rw [compared, BinaryOp.holds, decide_eq_decide.mpr Int.not_lt.symm, decide_not, <- hlt]
      rfl
  | _ => cases hop

theorem compared_compare {op : BinaryOp} (hop : op.isComparison = true) (a b : Int) :
    compared op (compare a b) = some (boolean (op.holds a b)) := by
  have horder : compare a b = if a < b then .lt else if a = b then .eq else .gt := rfl
  rw [horder]
  rcases Int.lt_trichotomy a b with h | h | h
  · have hne : a ≠ b := by omega
    have hle : ¬ b < a := by omega
    apply compared_of_order hop <;> simp [h, hne, hle]
  · subst h
    apply compared_of_order hop <;> simp
  · have hne : a ≠ b := by omega
    have hle : ¬ a < b := by omega
    apply compared_of_order hop <;> simp [h, hne, hle]

theorem binaryNode_comparison {l r : Typed} {ln rn : Bool} {a b : Int}
    (hl : l.value.IsInteger ln a) (hr : r.value.IsInteger rn b) {op : BinaryOp}
    (hop : op.isComparison = true) :
    binaryNode op (.constant l) (.constant r) = .constant (boolean (op.holds a b)) := by
  rcases binary?_of_isInteger hl hr op with ⟨x, y, rfl, rfl, heq⟩
  rw [binaryNode, heq, integers, hop, if_pos rfl, compared_compare hop]

/-!
## Folding
-/

/-- What fits is a constant with the number of the tree, and what does not is an operation. -/
theorem folded_cases (t : IntegerTree) :
    t.Fits ∧ (exists v, t.folded = .constant v ∧ v.value.IsInteger t.isNarrow t.number) ∨
      ¬ t.Fits ∧ exists op left right, t = node op left right ∧
        t.folded = .binary op.toBinary left.folded right.folded := by
  cases t with
  | int n type => exact Or.inl ⟨trivial, _, rfl, .int n⟩
  | bigint n type => exact Or.inl ⟨trivial, _, rfl, .bigint n⟩
  | node op left right =>
      by_cases h : (node op left right).Fits
      · refine Or.inl ⟨h, _, if_pos h, ?_⟩
        exact isInteger_result h.2.2.2
      · exact Or.inr ⟨h, op, left, right, rfl, if_neg h⟩

theorem fold_toExpr (t : IntegerTree) : fold t.toExpr = t.folded := by
  induction t with
  | int n type => rfl
  | bigint n type => rfl
  | node op left right ihl ihr =>
      rw [toExpr, fold, ihl, ihr, folded]
      rcases left.folded_cases with ⟨hleft, l, hl, hlvalue⟩ | ⟨hleft, lop, ll, lr, -, hl⟩
      · rcases right.folded_cases with ⟨hright, r, hr, hrvalue⟩ | ⟨hright, rop, rl, rr, -, hr⟩
        · rw [hl, hr, binaryNode_arithmetic hlvalue hrvalue]
          simp only [Fits, hleft, hright, true_and]
          rfl
        · rw [if_neg fun h => hright h.2.1, hl, hr]
          rfl
      · rw [if_neg fun h => hleft h.1, hl]
        rfl

theorem exists_constant_iff (t : IntegerTree) :
    (exists v, t.folded = .constant v) <-> t.Fits := by
  rcases t.folded_cases with ⟨hfits, v, hv, -⟩ | ⟨hfits, op, left, right, -, hnode⟩
  · exact iff_of_true ⟨v, hv⟩ hfits
  · refine iff_of_false ?_ hfits
    rintro ⟨v, hv⟩
    cases hnode.symm.trans hv

theorem isInteger_of_folded {t : IntegerTree} {v : Typed} (h : t.folded = .constant v) :
    v.value.IsInteger t.isNarrow t.number := by
  rcases t.folded_cases with ⟨-, w, hw, hinteger⟩ | ⟨-, op, left, right, -, hnode⟩
  · cases hw.symm.trans h
    exact hinteger
  · cases hnode.symm.trans h

theorem exists_folded_of_fits {t : IntegerTree} (h : t.Fits) :
    exists v, t.folded = .constant v ∧ v.value.IsInteger t.isNarrow t.number := by
  rcases t.exists_constant_iff.mpr h with ⟨v, hv⟩
  exact ⟨v, hv, isInteger_of_folded hv⟩

/-- A part that does not fit is left as an operation on what its operands are folded to. -/
theorem folded_of_not_fits {t : IntegerTree} (h : ¬ t.Fits) :
    exists op left right, t = node op left right ∧
      t.folded = .binary op.toBinary left.folded right.folded := by
  rcases t.folded_cases with ⟨hfits, -⟩ | ⟨-, hnode⟩
  · exact absurd hfits h
  · exact hnode

/-- A tree of integers is folded to a constant exactly when everything in it fits, and then to its
number; whatever does not fit is left, together with all that it is part of.  Comparisons of what
fits are folded to what they say of the numbers. -/
theorem integer_trees_folded_exactly (t : IntegerTree) :
    fold t.toExpr = t.folded ∧
      ((exists v, fold t.toExpr = .constant v) <-> t.Fits) ∧
      (forall v, fold t.toExpr = .constant v -> v.value.IsInteger t.isNarrow t.number) ∧
      (forall part, part.IsPart t -> ¬ part.Fits ->
        ¬ t.Fits ∧ exists op left right, part = node op left right ∧
          fold part.toExpr = .binary op.toBinary (fold left.toExpr) (fold right.toExpr)) ∧
      forall (op : BinaryOp) (u : IntegerTree), op.isComparison = true -> t.Fits -> u.Fits ->
        fold (.binary op t.toExpr u.toExpr) =
          .constant (boolean (op.holds t.number u.number)) := by
  simp only [fold_toExpr]
  refine ⟨trivial, t.exists_constant_iff, fun v => isInteger_of_folded, ?_, ?_⟩
  · intro part hpart hfails
    exact ⟨fun h => hfails (h.of_isPart hpart), folded_of_not_fits hfails⟩
  · intro op u hop ht hu
    rcases exists_folded_of_fits ht with ⟨l, hl, hlvalue⟩
    rcases exists_folded_of_fits hu with ⟨r, hr, hrvalue⟩
    rw [fold, fold_toExpr, fold_toExpr, hl, hr, binaryNode_comparison hlvalue hrvalue hop]

def lowestQuotient : IntegerTree := node .div (int (-2147483648) .integer) (int (-1) .integer)

def wideProduct : IntegerTree := node .mul (int 6 .integer) (bigint (-7) .bigint)

def lowestSum : IntegerTree := node .add wideProduct lowestQuotient

theorem lowestQuotient_left :
    lowestQuotient.IsPart lowestSum ∧ ¬ lowestQuotient.Fits ∧ ¬ lowestSum.Fits ∧
      fold lowestSum.toExpr =
        .binary .add (.constant ⟨.bigint (-42), .bigint⟩) lowestQuotient.toExpr ∧
      wideProduct.Fits ∧ wideProduct.number = -42 ∧
      fold (.binary .lt wideProduct.toExpr (int (-41) .integer).toExpr) =
        .constant (boolean true) := by
  have hpart : lowestQuotient.IsPart lowestSum := .right .whole
  have hfails : ¬ lowestQuotient.Fits := by decide
  have hfits : wideProduct.Fits := by decide
  have hsum := integer_trees_folded_exactly lowestSum
  have hproduct := integer_trees_folded_exactly wideProduct
  refine ⟨hpart, hfails, (hsum.2.2.2.1 _ hpart hfails).1, hsum.1.trans rfl, hfits, by decide, ?_⟩
  exact hproduct.2.2.2.2 .lt (int (-41) .integer) rfl hfits trivial

end IntegerTree
end TypedQuery
