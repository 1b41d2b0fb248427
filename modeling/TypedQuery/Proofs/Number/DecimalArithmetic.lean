import TypedQuery.Proofs.Number.DecimalValue

/-!
# Sums and products of decimals

The exact sum, difference or product of two decimals is rounded to a decimal, unless it is too great
for any.  The decimal is off by half a unit of its last digit at most; it is the exact number
whenever a decimal stands for this number.
-/

namespace TypedQuery
namespace Number
namespace Decimal

/-- A number is rounded to a decimal.  There is none for the numbers that are nearer to 2^96 than to
the greatest magnitude, and for those beyond. -/
structure Rounds (result : Option Decimal) (q : ℚ) : Prop where
  eq_none_iff : result = none <-> (twoPow 96 : ℚ) - 1 / 2 ≤ |q|
  near : forall x, result = some x -> |x.toRat - q| ≤ 1 / (2 * tenPow x.scale)
  eq_iff : forall x, result = some x -> (x.toRat = q <-> IsDecimal q)

theorem half_unit_nonneg (scale : Nat) : (0 : ℚ) ≤ 1 / (2 * tenPow scale) := by positivity

theorem abs_toRat_lt (x : Decimal) : |x.toRat| < (twoPow 96 : ℚ) - 1 / 2 := by
  have hone : (1 : ℚ) ≤ tenPow x.scale := by exact_mod_cast tenPow_pos x.scale
  have hmagnitude : |(x.unscaled : ℚ)| ≤ (twoPow 96 : ℚ) - 1 := by
    rw [<- Int.cast_abs, Int.abs_eq_natAbs, Int.cast_natCast, le_sub_iff_add_le]
    exact_mod_cast x.bounded
  rw [toRat, abs_div, abs_of_pos (cast_tenPow_pos x.scale)]
  calc |(x.unscaled : ℚ)| / tenPow x.scale ≤ |(x.unscaled : ℚ)| := div_le_self (abs_nonneg _) hone
    _ < (twoPow 96 : ℚ) - 1 / 2 := by linarith

theorem rounds_self {x : Decimal} {q : ℚ} (h : x.toRat = q) : Rounds (some x) q where
  eq_none_iff := by
    rw [<- h]
    exact iff_of_false (fun hnone => by cases hnone) (not_le.mpr x.abs_toRat_lt)
  near := by
    intro y hy
    cases hy
    rw [h, sub_self, abs_zero]
    exact half_unit_nonneg x.scale
  eq_iff := by
    intro y hy
    cases hy
    exact iff_of_true h ⟨x, h⟩

/-!
## Rounding to what fits
-/

/-- Where digits are dropped, a magnitude is too great from half a unit below the bound on. -/
theorem le_divHalfEven_tenPow_iff (number digits : Nat) :
    twoPow 96 ≤ divHalfEven number (tenPow digits) <->
      (twoPow 96 : ℚ) - 1 / 2 ≤ number / tenPow digits := by
  have hunit := cast_tenPow_pos digits
  have heven : twoPow 96 % 2 = 0 := by decide
  rw [le_divHalfEven_iff (tenPow_pos digits) heven, le_div_iff₀ hunit]
  have hcast : 2 * (twoPow 96 * tenPow digits) ≤ 2 * number + tenPow digits <->
      2 * ((twoPow 96 : ℚ) * tenPow digits) ≤ 2 * number + tenPow digits := by
    exact_mod_cast Iff.rfl
  rw [hcast]
  constructor
  · intro h
    linarith
  · intro h
    linarith

theorem divHalfEven_of_isDecimal {negative : Bool} {number scale count : Nat}
    (hcount : Drops number scale count)
    (h : IsDecimal (signed negative (number / tenPow scale))) :
    divHalfEven number (tenPow count) * tenPow count = number := by
  rcases exists_magnitude h with ⟨magnitude, digits, hfit, hdigits, hle, hnumber⟩
  have hshort : count ≤ scale - digits := by
    apply Nat.le_of_not_lt
    intro hlong
    have hover := hcount.least (scale - digits) hlong (by omega)
    rw [hnumber, Nat.mul_comm, divHalfEven_mul_left magnitude (tenPow_pos _)] at hover
    omega
  have hpower : tenPow (scale - digits) = tenPow count * tenPow (scale - digits - count) := by
    rw [show scale - digits = count + (scale - digits - count) by omega, Nat.add_sub_cancel_left]
    exact Nat.pow_add 10 _ _
  have hfactor : number = tenPow count * (magnitude * tenPow (scale - digits - count)) := by
    rw [hnumber, hpower, Nat.mul_left_comm]
  rw [hfactor, divHalfEven_mul_left _ (tenPow_pos count), Nat.mul_comm]

theorem rounds_fit? (negative : Bool) (number scale : Nat) :
    Rounds (fit? negative number scale) (signed negative (number / tenPow scale)) := by
  have hpositive : (0 : ℚ) ≤ number / tenPow scale := by positivity
  have habs : |signed negative ((number : ℚ) / tenPow scale)| = number / tenPow scale := by
    rw [abs_signed, abs_of_nonneg hpositive]
  rcases fit?_cases negative number scale with
    ⟨hnone, hover⟩ | ⟨count, x, hcount, hsome, hparts⟩
  · rw [hnone]
    constructor
    · rw [habs, <- le_divHalfEven_tenPow_iff]
      exact iff_of_true rfl hover
    · intro x hx
      cases hx
    · intro x hx
      cases hx
  · have hle : scale - count ≤ scale := Nat.sub_le scale count
    have hback : scale - (scale - count) = count := Nat.sub_sub_self hcount.le
    rw [hsome]
    constructor
    · rw [habs]
      refine iff_of_false (fun h => by cases h) ?_
      intro hover
      have hunits : (number : ℚ) / tenPow scale ≤ number / tenPow count := by
        apply div_le_div_of_nonneg_left (Nat.cast_nonneg number) (cast_tenPow_pos count)
        exact_mod_cast Nat.pow_le_pow_right (by decide) hcount.le
      have hlong := (le_divHalfEven_tenPow_iff number count).mpr (hover.trans hunits)
      exact absurd hcount.lt (Nat.not_lt.mpr hlong)
    · intro y hy
      cases hy
      have hnear : IsNear (divHalfEven number (tenPow count)) (tenPow (scale - (scale - count)))
          number := by
        rw [hback]
        exact isNear_divHalfEven number (tenPow_pos count)
      rw [toRat_of_hasParts hparts, hparts.scale_eq, abs_signed_sub]
      exact abs_units_sub_le hle hnear
    · intro y hy
      cases hy
      constructor
      · intro h
        exact ⟨x, h⟩
      · intro h
        have hexact := divHalfEven_of_isDecimal hcount h
        rw [toRat_of_hasParts hparts, signed_inj, div_tenPow_eq hle, hback]
        congr 1
        exact_mod_cast hexact

/-!
## Operations
-/

theorem toRat_eq_zero_iff (x : Decimal) : x.toRat = 0 <-> x.isZero = true := by
  rw [toRat, div_eq_zero_iff, or_iff_left (cast_tenPow_pos x.scale).ne', Int.cast_eq_zero, isZero,
    beq_iff_eq]

theorem toRat_neg (x : Decimal) : x.neg.toRat = -x.toRat := by
  rw [toRat, neg, Int.cast_neg, neg_div, toRat]

theorem atScale_div {x : Decimal} {scale : Nat} (h : x.scale ≤ scale) :
    (x.atScale scale : ℚ) / tenPow scale = x.toRat := by
  have hscale : (tenPow scale : ℚ) = tenPow x.scale * tenPow (scale - x.scale) := by
    rw [<- cast_tenPow_add, Nat.add_sub_cancel' h]
  have hunit := (cast_tenPow_pos (scale - x.scale)).ne'
  rw [atScale, Int.cast_mul, Int.cast_natCast, hscale, mul_div_mul_right _ _ hunit, toRat]

theorem rounds_units (n : Int) (scale : Nat) :
    Rounds (fit? (decide (n < 0)) n.natAbs scale) (n / tenPow scale) := by
  rw [<- signed_natAbs]
  exact rounds_fit? (decide (n < 0)) n.natAbs scale

theorem rounds_add? (a b : Decimal) : Rounds (a.add? b) (a.toRat + b.toRat) := by
  rw [add?]
  cases ha : a.isZero with
  | true =>
      rw [if_pos rfl, a.toRat_eq_zero_iff.mpr ha, zero_add]
      exact rounds_self rfl
  | false =>
      rw [if_neg Bool.false_ne_true]
      cases hb : b.isZero with
      | true =>
          rw [if_pos rfl, b.toRat_eq_zero_iff.mpr hb, add_zero]
          exact rounds_self rfl
      | false =>
          rw [if_neg Bool.false_ne_true, <- atScale_div (Nat.le_max_left a.scale b.scale),
            <- atScale_div (Nat.le_max_right a.scale b.scale), <- add_div, <- Int.cast_add]
          exact rounds_units _ _

theorem rounds_sub? (a b : Decimal) : Rounds (a.sub? b) (a.toRat - b.toRat) := by
  rw [sub?, sub_eq_add_neg, <- toRat_neg]
  exact rounds_add? a b.neg

theorem toRat_mul (a b : Decimal) :
    a.toRat * b.toRat = ((a.unscaled * b.unscaled : Int) : ℚ) / tenPow (a.scale + b.scale) := by
  rw [toRat, toRat, div_mul_div_comm, Int.cast_mul, cast_tenPow_add]

theorem tenPow_le_tenPow {m n : Nat} (h : m ≤ n) : tenPow m ≤ tenPow n :=
  Nat.pow_le_pow_right (by decide) h

/-- A number of 64 bits with more than 47 fractional digits is no decimal, and vanishes. -/
theorem rounds_zero {n : Int} (hn : n ≠ 0) (hsmall : n.natAbs < twoPow 64) {scale : Nat}
    (hscale : 47 < scale) : Rounds (some zero) (n / tenPow scale) := by
  have hzero : zero.toRat = 0 := zero.toRat_eq_zero_iff.mpr rfl
  have hhalf : |(n : ℚ) / tenPow scale| ≤ 1 / 2 := by
    have hdouble : 2 * n.natAbs ≤ tenPow scale := by
      have hbound : 2 * twoPow 64 ≤ tenPow 48 := by decide
      have hunits : tenPow 48 ≤ tenPow scale := tenPow_le_tenPow hscale
      omega
    have hcast : 2 * |(n : ℚ)| ≤ tenPow scale := by
      rw [<- Int.cast_abs, Int.abs_eq_natAbs, Int.cast_natCast]
      exact_mod_cast hdouble
    rw [abs_div, abs_of_pos (cast_tenPow_pos scale), div_le_iff₀ (cast_tenPow_pos scale)]
    linarith
  have hdecimal : ¬ IsDecimal ((n : ℚ) / tenPow scale) := by
    intro h
    rw [<- signed_natAbs] at h
    rcases exists_magnitude h with ⟨magnitude, digits, -, hdigits, -, hnumber⟩
    have hpositive : 0 < magnitude := by
      apply Nat.pos_of_ne_zero
      intro hmagnitude
      rw [hmagnitude, Nat.zero_mul] at hnumber
      exact hn (Int.natAbs_eq_zero.mp hnumber)
    have hroom : digits ≤ 28 := hdigits
    have hunits : tenPow 20 ≤ tenPow (scale - digits) := tenPow_le_tenPow (by omega)
    have hbound : twoPow 64 ≤ tenPow 20 := by decide
    have hfactor := Nat.le_mul_of_pos_left (tenPow (scale - digits)) hpositive
    omega
  constructor
  · refine iff_of_false (fun h => by cases h) ?_
    have hlimit : (1 : ℚ) < twoPow 96 - 1 / 2 := by
      have hbound : (2 : ℚ) ≤ twoPow 96 := by exact_mod_cast (by decide : 2 ≤ twoPow 96)
      linarith
    intro h
    linarith
  · intro x hx
    cases hx
    have hunit : (tenPow zero.scale : ℚ) = 1 := by norm_num [zero, tenPow]
    rw [hzero, zero_sub, abs_neg, hunit, mul_one]
    exact hhalf
  · intro x hx
    cases hx
    refine iff_of_false ?_ hdecimal
    intro h
    exact hdecimal ⟨zero, h⟩

theorem rounds_mul? (a b : Decimal) : Rounds (a.mul? b) (a.toRat * b.toRat) := by
  rw [mul?]
  cases hzero : a.isZero || b.isZero with
  | true =>
      have hproduct : a.toRat * b.toRat = 0 := by
        rcases Bool.or_eq_true_iff.mp hzero with ha | hb
        · rw [a.toRat_eq_zero_iff.mpr ha, zero_mul]
        · rw [b.toRat_eq_zero_iff.mpr hb, mul_zero]
      rw [if_pos rfl, hproduct]
      exact rounds_self (zero.toRat_eq_zero_iff.mpr rfl)
  | false =>
      rw [if_neg Bool.false_ne_true, toRat_mul]
      dsimp only
      split
      · rename_i hvanish
        simp only [Bool.and_eq_true, decide_eq_true_eq] at hvanish
        rcases hvanish with ⟨⟨ha, hb⟩, hscale⟩
        apply rounds_zero
        · rcases Bool.or_eq_false_iff.mp hzero with ⟨hane, hbne⟩
          exact mul_ne_zero (beq_eq_false_iff_ne.mp hane) (beq_eq_false_iff_ne.mp hbne)
        · have hbits : twoPow 32 * twoPow 32 = twoPow 64 := by decide
          rw [Int.natAbs_mul, <- hbits]
          exact Nat.mul_lt_mul'' ha hb
        · exact hscale
      · exact rounds_units _ _

end Decimal
end Number
end TypedQuery
