import Mathlib.Algebra.Order.Field.Basic
import Mathlib.Data.Rat.Floor
import Mathlib.Tactic.FieldSimp
import Mathlib.Tactic.Linarith
import Mathlib.Tactic.NormNum
import Mathlib.Tactic.Positivity
import Mathlib.Tactic.Ring
import TypedQuery.Number.Decimal

/-!
# The numbers that decimals stand for

A decimal stands for a rational number.  A text of digits with a point stands for one as well, and
what is read from it is that number if some decimal has it, and otherwise one that is off by half
a unit of the last digit at most.
-/

namespace TypedQuery
namespace Number

theorem cast_tenPow_pos (digits : Nat) : (0 : ℚ) < tenPow digits := by
  exact_mod_cast tenPow_pos digits

theorem cast_tenPow_add (m n : Nat) : (tenPow (m + n) : ℚ) = tenPow m * tenPow n := by
  exact_mod_cast Nat.pow_add 10 m n

def signed (negative : Bool) (q : ℚ) : ℚ := if negative then -q else q

theorem abs_signed_sub (negative : Bool) (q r : ℚ) :
    |signed negative q - signed negative r| = |q - r| := by
  cases negative with
  | true =>
      show |-q - -r| = |q - r|
      rw [neg_sub_neg, abs_sub_comm]
  | false => rfl

theorem abs_signed (negative : Bool) (q : ℚ) : |signed negative q| = |q| := by
  cases negative with
  | true => exact abs_neg q
  | false => rfl

theorem signed_natAbs (n : Int) (unit : ℚ) :
    signed (decide (n < 0)) (n.natAbs / unit) = n / unit := by
  by_cases h : n < 0
  · have habs : ((n.natAbs : Int) : ℚ) = ((-n : Int) : ℚ) := by
      rw [Int.ofNat_natAbs_of_nonpos h.le]
    rw [Int.cast_natCast] at habs
    rw [decide_eq_true h, habs, Int.cast_neg, neg_div]
    exact neg_neg _
  · have habs : ((n.natAbs : Int) : ℚ) = (n : ℚ) := by
      rw [Int.natAbs_of_nonneg (not_lt.mp h)]
    rw [Int.cast_natCast] at habs
    rw [decide_eq_false h, habs]
    rfl

theorem signed_inj {negative : Bool} {q r : ℚ} :
    signed negative q = signed negative r <-> q = r := by
  cases negative with
  | true => exact neg_inj
  | false => exact Iff.rfl

namespace Decimal

def toRat (x : Decimal) : ℚ := x.unscaled / tenPow x.scale

def IsDecimal (q : ℚ) : Prop := exists x : Decimal, x.toRat = q

theorem toRat_of_hasParts {x : Decimal} {negative : Bool} {magnitude scale : Nat}
    (h : x.HasParts negative magnitude scale) :
    x.toRat = signed negative (magnitude / tenPow scale) := by
  rw [toRat, h.unscaled_eq, h.scale_eq]
  cases negative with
  | true =>
      show ((-(magnitude : Int) : Int) : ℚ) / _ = -((magnitude : ℚ) / _)
      rw [Int.cast_neg, Int.cast_natCast, neg_div]
  | false => rfl

/-- The number of a text of digits, so many of them behind the point. -/
def pointedValue (negative : Bool) (whole fraction : List Char) : ℚ :=
  signed negative (ofDigits (whole ++ fraction) / tenPow fraction.length)

theorem div_tenPow_eq {scale digits : Nat} (h : scale ≤ digits) (magnitude : Nat) :
    (magnitude : ℚ) / tenPow scale = magnitude * tenPow (digits - scale) / tenPow digits := by
  have hpower : (tenPow digits : ℚ) = tenPow scale * tenPow (digits - scale) := by
    rw [<- cast_tenPow_add, Nat.add_sub_cancel' h]
  have hscale := (cast_tenPow_pos scale).ne'
  have hrest := (cast_tenPow_pos (digits - scale)).ne'
  rw [hpower]
  field_simp

/-- A decimal that stands for so many units of one scale has a magnitude of at most as many
digits. -/
theorem exists_magnitude {negative : Bool} {number digits : Nat}
    (h : IsDecimal (signed negative (number / tenPow digits))) :
    exists magnitude scale, magnitude < twoPow 96 ∧ scale ≤ maxScale ∧ scale ≤ digits ∧
      number = magnitude * tenPow (digits - scale) := by
  rcases h with ⟨y, hy⟩
  have hvalue : (y.unscaled.natAbs : ℚ) / tenPow y.scale = number / tenPow digits := by
    have habs := congrArg abs hy
    have hunsigned : |signed negative ((number : ℚ) / tenPow digits)| =
        number / tenPow digits := by
      rw [abs_signed, abs_of_nonneg]
      positivity
    rw [hunsigned, toRat, abs_div, abs_of_pos (cast_tenPow_pos _)] at habs
    rw [<- habs, Nat.cast_natAbs, Int.cast_abs]
  have hscale := (cast_tenPow_pos y.scale).ne'
  have hdigits := (cast_tenPow_pos digits).ne'
  by_cases hle : y.scale ≤ digits
  · refine ⟨y.unscaled.natAbs, y.scale, y.bounded, y.scale_le, hle, ?_⟩
    rw [div_tenPow_eq hle, div_left_inj' hdigits] at hvalue
    exact_mod_cast hvalue.symm
  · refine ⟨number, digits, ?_, ?_, Nat.le_refl _, ?_⟩
    · rw [div_tenPow_eq (by omega : digits ≤ y.scale), div_left_inj' hscale] at hvalue
      have hunits : y.unscaled.natAbs = number * tenPow (y.scale - digits) := by
        exact_mod_cast hvalue
      exact Nat.lt_of_le_of_lt
        (hunits ▸ Nat.le_mul_of_pos_right _ (tenPow_pos _)) y.bounded
    · exact (Nat.le_of_not_le hle).trans y.scale_le
    · rw [Nat.sub_self]
      exact (Nat.mul_one _).symm

/-- What is near in units is off by half a unit of the last digit at most. -/
theorem abs_units_sub_le {magnitude number scale digits : Nat} (hscale : scale ≤ digits)
    (h : IsNear magnitude (tenPow (digits - scale)) number) :
    |(magnitude : ℚ) / tenPow scale - number / tenPow digits| ≤ 1 / (2 * tenPow scale) := by
  rw [div_tenPow_eq hscale, <- sub_div]
  have hunit := cast_tenPow_pos (digits - scale)
  have hwhole := cast_tenPow_pos digits
  have hhalf : (1 : ℚ) / (2 * tenPow scale) =
      tenPow (digits - scale) / 2 / tenPow digits := by
    have hone := div_tenPow_eq hscale 1
    rw [Nat.cast_one, one_mul] at hone
    rw [mul_comm, <- div_div, hone]
    ring
  have hle : 2 * ((magnitude : ℚ) * tenPow (digits - scale)) ≤
      2 * number + tenPow (digits - scale) := by
    exact_mod_cast h.le
  have hge : 2 * (number : ℚ) ≤
      2 * (magnitude * tenPow (digits - scale)) + tenPow (digits - scale) := by
    exact_mod_cast h.ge
  rw [hhalf, abs_div, abs_of_pos hwhole]
  refine div_le_div_of_nonneg_right ?_ hwhole.le
  rw [abs_le]
  constructor <;> linarith

section

variable {negative : Bool} {whole fraction : List Char} (hne : whole ≠ [])
  (hdigits : forall c, c ∈ whole ++ fraction -> c.isDigit = true)

include hne hdigits

theorem abs_toRat_sub_pointedValue {x : Decimal}
    (h : ofPlain? ((if negative then ['-'] else []) ++ pointed whole fraction) = some x) :
    x.scale ≤ fraction.length ∧
      |x.toRat - pointedValue negative whole fraction| ≤ 1 / (2 * tenPow x.scale) := by
  rcases ofPlain?_pointed_near hne hdigits h with ⟨magnitude, scale, hparts, hscale, hnear⟩
  rw [toRat_of_hasParts hparts, hparts.scale_eq, pointedValue, abs_signed_sub]
  exact ⟨hscale, abs_units_sub_le hscale hnear⟩

theorem exists_toRat_eq_pointedValue (h : IsDecimal (pointedValue negative whole fraction)) :
    exists x, ofPlain? ((if negative then ['-'] else []) ++ pointed whole fraction) = some x ∧
      x.toRat = pointedValue negative whole fraction := by
  rcases exists_magnitude h with
    ⟨magnitude, scale, hfit, hscale, hlength, hvalue⟩
  rcases ofPlain?_pointed_exact negative hne hdigits hfit hscale hlength hvalue with
    ⟨x, read, left, hx, hparts, hleft, hread⟩
  refine ⟨x, hx, ?_⟩
  rw [toRat_of_hasParts hparts, pointedValue, signed_inj, div_tenPow_eq hleft, <- hread]
  push_cast
  rfl

end

end Decimal
end Number
end TypedQuery
