import TypedQuery.Expr.Fold
import TypedQuery.Proofs.Number.DecimalArithmetic

/-!
# Folded decimals

The sum, difference or product of two constants, of which one is a decimal and the other a decimal
or an integer, is folded to a decimal unless it is too great for any.  It is folded to the exact
number only if a decimal stands for this number: every other one is folded as well, and rounded.
-/

namespace TypedQuery

open Fold Number

/-- The operations on decimals that are not left to the server. -/
inductive DecimalOp where
  | add
  | sub
  | mul

namespace DecimalOp

def toBinary : DecimalOp -> BinaryOp
  | add => .add
  | sub => .sub
  | mul => .mul

def apply : DecimalOp -> ℚ -> ℚ -> ℚ
  | add, a, b => a + b
  | sub, a, b => a - b
  | mul, a, b => a * b

def rounded? : DecimalOp -> Decimal -> Decimal -> Option Decimal
  | add, a, b => a.add? b
  | sub, a, b => a.sub? b
  | mul, a, b => a.mul? b

theorem rounds_rounded? (op : DecimalOp) (a b : Decimal) :
    Decimal.Rounds (op.rounded? a b) (op.apply a.toRat b.toRat) := by
  cases op with
  | add => exact Decimal.rounds_add? a b
  | sub => exact Decimal.rounds_sub? a b
  | mul => exact Decimal.rounds_mul? a b

end DecimalOp

/-- A value that is a decimal or an integer, and its number. -/
inductive Value.IsNumber : Value -> ℚ -> Prop
  | decimal (d : Decimal) : IsNumber (.decimal d) d.toRat
  | int (n : Int32) : IsNumber (.int n) n.toInt
  | bigint (n : Int64) : IsNumber (.bigint n) n.toInt

def Value.IsDecimal (v : Value) : Prop := exists d, v = .decimal d

namespace Fold

theorem toRat_ofInt64 (n : Int64) : (Decimal.ofInt64 n).toRat = n.toInt := by
  have hunit : (tenPow (Decimal.ofInt64 n).scale : ℚ) = 1 := Nat.cast_one
  rw [Decimal.toRat, hunit, div_one]
  rfl

theorem exists_decimal? {v : Value} {q : ℚ} (h : v.IsNumber q) :
    exists d, decimal? v = some d ∧ d.toRat = q := by
  cases h with
  | decimal d => exact ⟨d, rfl, rfl⟩
  | int n =>
      refine ⟨Decimal.ofInt64 n.toInt64, rfl, ?_⟩
      rw [toRat_ofInt64, Int32.toInt_toInt64]
  | bigint n => exact ⟨Decimal.ofInt64 n, rfl, toRat_ofInt64 n⟩

theorem binary?_of_isDecimal {l r : Typed} {a b : ℚ} (hl : l.value.IsNumber a)
    (hr : r.value.IsNumber b) (hdecimal : l.value.IsDecimal ∨ r.value.IsDecimal)
    {x y : Decimal} (hx : decimal? l.value = some x) (hy : decimal? r.value = some y)
    (op : BinaryOp) : binary? op l r = decimals op x y := by
  rcases l with ⟨l, lt⟩
  rcases r with ⟨r, rt⟩
  cases hl with
  | decimal d =>
      cases hx
      cases hr <;> cases hy <;> rfl
  | _ =>
      cases hx
      cases hr with
      | decimal d =>
          cases hy
          rfl
      | _ => rcases hdecimal with ⟨d, hd⟩ | ⟨d, hd⟩ <;> cases hd

theorem decimals_eq (op : DecimalOp) (x y : Decimal) :
    decimals op.toBinary x y = (op.rounded? x y).map fun d => ⟨.decimal d, .numeric⟩ := by
  have harithmetic : op.toBinary.isComparison = false := by cases op <;> rfl
  rw [decimals, harithmetic, if_neg Bool.false_ne_true]
  cases op with
  | add => exact Option.map_eq_bind.symm
  | sub => exact Option.map_eq_bind.symm
  | mul => exact Option.map_eq_bind.symm

theorem fold_rounded {op : DecimalOp} {l r : Typed} {x y : Decimal}
    (h : binary? op.toBinary l r = decimals op.toBinary x y) :
    fold (.binary op.toBinary (.constant l) (.constant r)) =
      match op.rounded? x y with
      | some d => .constant ⟨.decimal d, .numeric⟩
      | none => .binary op.toBinary (.constant l) (.constant r) := by
  rw [fold]
  show binaryNode op.toBinary (.constant l) (.constant r) = _
  rw [binaryNode, h, decimals_eq]
  cases op.rounded? x y <;> rfl

end Fold

/-- A sum, difference or product with a decimal is left to the server exactly when it is too great.
Otherwise it is folded to a decimal near it, which is the exact number just when a decimal stands
for this number. -/
theorem folded_decimals_exact_iff (op : DecimalOp) {l r : Typed} {a b : ℚ}
    (hl : l.value.IsNumber a) (hr : r.value.IsNumber b)
    (hdecimal : l.value.IsDecimal ∨ r.value.IsDecimal) :
    (fold (.binary op.toBinary (.constant l) (.constant r)) =
          .binary op.toBinary (.constant l) (.constant r) <->
        (twoPow 96 : ℚ) - 1 / 2 ≤ |op.apply a b|) ∧
      (|op.apply a b| < (twoPow 96 : ℚ) - 1 / 2 ->
        exists d : Decimal,
          fold (.binary op.toBinary (.constant l) (.constant r)) =
              .constant ⟨.decimal d, .numeric⟩ ∧
            |d.toRat - op.apply a b| ≤ 1 / (2 * tenPow d.scale) ∧
            (d.toRat = op.apply a b <-> Decimal.IsDecimal (op.apply a b))) := by
  rcases exists_decimal? hl with ⟨x, hx, rfl⟩
  rcases exists_decimal? hr with ⟨y, hy, rfl⟩
  have hrounds := op.rounds_rounded? x y
  rw [fold_rounded (binary?_of_isDecimal hl hr hdecimal hx hy op.toBinary),
    <- hrounds.eq_none_iff]
  cases hresult : op.rounded? x y with
  | none =>
      constructor
      · exact iff_of_true rfl rfl
      · intro hsmall
        exact absurd (hrounds.eq_none_iff.mp hresult) (not_le.mpr hsmall)
  | some d =>
      constructor
      · exact iff_of_false (fun h => by cases h) (fun h => by cases h)
      · intro _
        exact ⟨d, rfl, hrounds.near d hresult, hrounds.eq_iff d hresult⟩

/-!
## Decimals with many digits
-/

def Number.Decimal.unit (scale : Nat) (h : scale ≤ 28 := by decide) : Decimal where
  unscaled := 1
  scale := scale
  scale_le := h

theorem Number.Decimal.toRat_unit {scale : Nat} (h : scale ≤ 28) :
    (unit scale h).toRat = 1 / 10 ^ scale := by
  have hpower : (tenPow scale : ℚ) = 10 ^ scale := by exact_mod_cast rfl
  rw [toRat, <- hpower]
  exact congrArg (· / (tenPow scale : ℚ)) Int.cast_one

def unitConstant (scale : Nat) (h : scale ≤ 28 := by decide) : Typed :=
  ⟨.decimal (.unit scale h), .numeric⟩

def greatest : Typed := ⟨.bigint 9223372036854775807, .bigint⟩

theorem toInt_greatest : ((9223372036854775807 : Int64).toInt : ℚ) = 9223372036854775807 := by
  norm_cast

/-- Nineteen digits before the point leave room for a tenth. -/
theorem greatest_minus_tenth_folded :
    exists d : Decimal, d.toRat = (9223372036854775807 : ℚ) - 1 / 10 ^ 1 ∧
      fold (.binary .sub (.constant greatest) (.constant (unitConstant 1))) =
        .constant ⟨.decimal d, .numeric⟩ := by
  have htenth : (unitConstant 1).value.IsNumber (1 / 10 ^ 1) := by
    rw [<- Decimal.toRat_unit (by decide)]
    exact .decimal _
  have hgreatest : greatest.value.IsNumber 9223372036854775807 := by
    rw [<- toInt_greatest]
    exact .bigint _
  have hsmall : |(9223372036854775807 : ℚ) - 1 / 10 ^ 1| < (twoPow 96 : ℚ) - 1 / 2 := by
    norm_num [twoPow, abs_of_pos]
  rcases (folded_decimals_exact_iff .sub hgreatest htenth (.inr ⟨_, rfl⟩)).2 hsmall with
    ⟨d, hd, -, hexact⟩
  refine ⟨d, hexact.mpr ⟨{ unscaled := 92233720368547758069, scale := 1 }, ?_⟩, hd⟩
  norm_num [Decimal.toRat, DecimalOp.apply, tenPow]

/-- A square that needs thirty fractional digits and a sum that needs forty-seven digits are folded,
although no decimal stands for them.  The one becomes zero, the other loses the lesser number. -/
theorem digits_lost :
    (fold (.binary .mul (.constant (unitConstant 15)) (.constant (unitConstant 15))) =
        .constant ⟨.decimal { unscaled := 0, scale := 28 }, .numeric⟩ ∧
      ¬ Decimal.IsDecimal (1 / 10 ^ 15 * (1 / 10 ^ 15))) ∧
    (fold (.binary .add (.constant greatest) (.constant (unitConstant 28))) =
        .constant ⟨.decimal { unscaled := 9223372036854775807000000000, scale := 9 }, .numeric⟩ ∧
      ¬ Decimal.IsDecimal (9223372036854775807 + 1 / 10 ^ 28)) := by
  refine ⟨⟨rfl, ?_⟩, ⟨rfl, ?_⟩⟩
  · have hrounds := Decimal.rounds_mul? (.unit 15) (.unit 15)
    rw [Decimal.toRat_unit] at hrounds
    rw [<- hrounds.eq_iff { unscaled := 0, scale := 28 } rfl]
    norm_num [Decimal.toRat]
  · have hrounds := Decimal.rounds_add? (.ofInt64 9223372036854775807) (.unit 28)
    rw [toRat_ofInt64, toInt_greatest, Decimal.toRat_unit] at hrounds
    rw [<- hrounds.eq_iff { unscaled := 9223372036854775807000000000, scale := 9 } rfl]
    norm_num [Decimal.toRat, tenPow]

end TypedQuery
