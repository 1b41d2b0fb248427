import Mathlib.Algebra.Order.Field.Power
import Mathlib.Algebra.Order.Floor.Semiring
import TypedQuery.Proofs.Number.DecimalValue
import TypedQuery.Proofs.Wire.Numeric

/-!
# The numbers of decimals in binary format

Groups of digits stand for their sum.  What is read from bytes is that number only for the bytes
of a finite number that a decimal has: groups that are missing are taken for zeros, a sign that is
none for a plus, and digits that do not fit are rounded away.
-/

namespace TypedQuery
namespace Wire

open Number

namespace DigitGroups

/-!
## Sums of groups
-/

/-- The sum of groups, the first of which counts the given power of 10000. -/
def total (weight : Int) : List Nat -> ℚ
  | [] => 0
  | g :: more => g * (10000 : ℚ) ^ weight + total (weight - 1) more

theorem total_append (weight : Int) (groups more : List Nat) :
    total weight (groups ++ more) = total weight groups + total (weight - groups.length) more := by
  induction groups generalizing weight with
  | nil => simp [total]
  | cons g rest ih =>
      have hweight : weight - 1 - (rest.length : Int) = weight - ((g :: rest).length : Nat) := by
        rw [List.length_cons]
        omega
      rw [List.cons_append, total, total, ih, hweight, add_assoc]

theorem total_zeros (weight : Int) (count : Nat) : total weight (List.replicate count 0) = 0 := by
  induction count generalizing weight with
  | zero => rfl
  | succ count ih => rw [List.replicate_succ, total, ih, Nat.cast_zero, zero_mul, add_zero]

theorem total_eq_ofDigits (weight : Int) (groups : List Nat) :
    total weight groups =
      (Nat.ofDigits 10000 groups.reverse : Nat) *
        (10000 : ℚ) ^ (weight + 1 - groups.length) := by
  induction groups generalizing weight with
  | nil => simp [total]
  | cons g rest ih =>
      have hrest : weight - 1 + 1 - (rest.length : Int) =
          weight + 1 - ((g :: rest).length : Nat) := by
        rw [List.length_cons]
        omega
      have hfirst : (10000 : ℚ) ^ weight =
          10000 ^ rest.length * 10000 ^ (weight + 1 - ((g :: rest).length : Int)) := by
        rw [<- zpow_natCast, <- zpow_add₀ (by norm_num)]
        congr 1
        rw [List.length_cons]
        omega
      rw [total, ih, hrest, hfirst, List.reverse_cons, Nat.ofDigits_append, List.length_reverse,
        Nat.ofDigits_singleton]
      push_cast
      ring

theorem total_nonneg (weight : Int) (groups : List Nat) : 0 ≤ total weight groups := by
  rw [total_eq_ofDigits]
  positivity

theorem total_lt {groups : List Nat} (h : forall g, g ∈ groups -> g < 10000) (weight : Int) :
    total weight groups < (10000 : ℚ) ^ (weight + 1) := by
  have hdigits : Nat.ofDigits 10000 groups.reverse < 10000 ^ groups.length := by
    rw [<- List.length_reverse]
    exact Nat.ofDigits_lt_base_pow_length (by decide) fun g hg => h g (List.mem_reverse.mp hg)
  have hunit : (0 : ℚ) < 10000 ^ (weight + 1 - groups.length) := by positivity
  calc total weight groups
      = (Nat.ofDigits 10000 groups.reverse : Nat) *
          (10000 : ℚ) ^ (weight + 1 - groups.length) :=
        total_eq_ofDigits weight groups
    _ < (10000 : ℚ) ^ groups.length * 10000 ^ (weight + 1 - groups.length) :=
        mul_lt_mul_of_pos_right (by exact_mod_cast hdigits) hunit
    _ = 10000 ^ (weight + 1) := by
        rw [<- zpow_natCast, <- zpow_add₀ (by norm_num)]
        congr 1
        omega

/-!
## The number that is written out
-/

/-- How many groups stand for digits up to the last one that the scale asks for. -/
def shownCount (d : DigitGroups) : Nat := (d.weight + 1 + groupsBehind d.scale).toNat

theorem span_of_negative (d : DigitGroups) {position : Int} {count : Nat}
    (h : position + count ≤ 0) : d.span position count = List.replicate count 0 := by
  induction count generalizing position with
  | zero => rfl
  | succ count ih =>
      rw [span, ih (by omega), group, if_pos (by omega), List.replicate_succ]

theorem exists_shown_take (d : DigitGroups) :
    exists zeros more, d.shown =
      List.replicate zeros 0 ++ (d.groups.take d.shownCount ++ List.replicate more 0) ∧
        (d.groups.take d.shownCount).length + more = d.shownCount := by
  have htake : (d.groups ++ List.replicate d.shownCount 0).take d.shownCount =
      d.groups.take d.shownCount ++ List.replicate (d.shownCount - d.groups.length) 0 := by
    rw [List.take_append, List.take_replicate]
    congr 2
    omega
  by_cases hcount : 0 ≤ d.weight + 1 + groupsBehind d.scale
  · have hlength : (((d.groups ++ List.replicate d.shownCount 0).take d.shownCount).length : Int) =
        d.weight + 1 + groupsBehind d.scale := by
      rw [List.length_take, List.length_append, List.length_replicate, shownCount]
      omega
    have hgroups : forall i : Nat,
        i < ((d.groups ++ List.replicate d.shownCount 0).take d.shownCount).length ->
          d.group i =
            (((d.groups ++ List.replicate d.shownCount 0).take d.shownCount)[i]?).getD 0 := by
      intro i hi
      rw [List.getElem?_take_of_lt (by rw [List.length_take] at hi; omega)]
      exact d.group_eq_getD d.shownCount i
    rcases exists_shown hgroups hlength with ⟨zeros, hshown⟩
    refine ⟨zeros, _, hshown.trans (by rw [htake]), ?_⟩
    rw [List.length_take]
    omega
  · have hnone : d.shownCount = 0 := by
      rw [shownCount]
      omega
    refine ⟨groupsBehind d.scale, 0, ?_, by rw [hnone]; rfl⟩
    rw [shown, if_pos (by omega), span_of_negative d (by omega), hnone]
    exact (List.append_nil _).symm

theorem ofDigits_shown_eq (d : DigitGroups) :
    ((Nat.ofDigits 10000 d.shown.reverse : Nat) : ℚ) =
      total d.weight (d.groups.take d.shownCount) * 10000 ^ groupsBehind d.scale := by
  rcases exists_shown_take d with ⟨zeros, more, hshown, hlength⟩
  have hdigits : Nat.ofDigits 10000 d.shown.reverse =
      Nat.ofDigits 10000 (d.groups.take d.shownCount ++ List.replicate more 0).reverse := by
    rw [hshown, List.reverse_append, List.reverse_replicate, Nat.ofDigits_append_replicate_zero]
  have htotal : total d.weight (d.groups.take d.shownCount ++ List.replicate more 0) =
      total d.weight (d.groups.take d.shownCount) := by
    rw [total_append, total_zeros, add_zero]
  rw [hdigits, <- htotal, total_eq_ofDigits, List.length_append, List.length_replicate, hlength]
  by_cases hcount : 0 ≤ d.weight + 1 + groupsBehind d.scale
  · have hunit :
        (10000 : ℚ) ^ (d.weight + 1 - d.shownCount) * 10000 ^ groupsBehind d.scale = 1 := by
      have hzero : d.weight + 1 - d.shownCount + groupsBehind d.scale = 0 := by
        rw [shownCount]
        omega
      rw [<- zpow_natCast, <- zpow_add₀ (by norm_num), hzero, zpow_zero]
    rw [mul_assoc, hunit, mul_one]
  · have hnone : d.shownCount = 0 := by
      rw [shownCount]
      omega
    have hmore : more = 0 := by omega
    rw [hnone, hmore]
    simp

theorem total_drop_lt {d : DigitGroups} (hgroups : forall g, g ∈ d.groups -> g < 10000) :
    total (d.weight - (d.groups.take d.shownCount).length) (d.groups.drop d.shownCount) *
      10000 ^ groupsBehind d.scale < 1 := by
  cases hdrop : d.groups.drop d.shownCount with
  | nil => simp [total]
  | cons g rest =>
      have hlength : d.shownCount < d.groups.length := by
        apply Nat.lt_of_not_le
        intro hle
        rw [List.drop_of_length_le hle] at hdrop
        cases hdrop
      have hweight :
          d.weight - (d.groups.take d.shownCount).length + 1 + groupsBehind d.scale ≤ 0 := by
        rw [List.length_take, Nat.min_eq_left hlength.le, shownCount]
        omega
      have hrest : forall g', g' ∈ g :: rest -> g' < 10000 := fun g' hg =>
        hgroups g' (List.mem_of_mem_drop (hdrop ▸ hg))
      have hlt := total_lt hrest (d.weight - (d.groups.take d.shownCount).length)
      have hunit : (0 : ℚ) < 10000 ^ groupsBehind d.scale := by positivity
      refine lt_of_lt_of_le (mul_lt_mul_of_pos_right hlt hunit) ?_
      rw [<- zpow_natCast, <- zpow_add₀ (by norm_num)]
      exact zpow_le_one_of_nonpos₀ (by norm_num) hweight

theorem cast_pow_groupsBehind (scale : Nat) :
    (10000 : ℚ) ^ groupsBehind scale = tenPow scale * tenPow (4 * groupsBehind scale - scale) := by
  have hsum : scale + (4 * groupsBehind scale - scale) = 4 * groupsBehind scale := by
    rw [groupsBehind]
    omega
  have hpower : tenPow (4 * groupsBehind scale) = 10000 ^ groupsBehind scale := Nat.pow_mul 10 4 _
  rw [<- cast_tenPow_add, hsum]
  exact_mod_cast hpower.symm

/-- The digits behind the scale are less than one unit of it. -/
theorem exists_ofDigits_shown_eq {d : DigitGroups} (hgroups : forall g, g ∈ d.groups -> g < 10000) :
    exists rest, rest < tenPow (4 * groupsBehind d.scale - d.scale) ∧
      Nat.ofDigits 10000 d.shown.reverse =
        ofDigits (d.whole.toList ++ d.behindPoint.take d.scale) *
          tenPow (4 * groupsBehind d.scale - d.scale) + rest := by
  have hposition := group_lt_of_mem hgroups
  have hlength : (d.behindPoint.drop d.scale).length = 4 * groupsBehind d.scale - d.scale := by
    rw [List.length_drop, length_behindPoint hposition]
  refine ⟨ofDigits (d.behindPoint.drop d.scale), ?_, ?_⟩
  · rw [<- hlength]
    exact ofDigits_lt fun c hc =>
      isDigit_of_mem_digits (List.mem_append_right _ (List.mem_of_mem_drop hc))
  · rw [<- hlength, <- ofDigits_append, List.append_assoc, List.take_append_drop,
      ofDigits_whole_append hposition]

theorem eq_floor_of_mul_eq {number rest unit : Nat} {x dropped : ℚ} (hrest : rest < unit)
    (hnonneg : 0 ≤ dropped) (hlt : dropped < 1)
    (h : x * unit = (number * unit + rest : Nat) + dropped) : number = ⌊x⌋₊ := by
  have hunit : (0 : ℚ) < unit := by exact_mod_cast Nat.zero_lt_of_lt hrest
  have hnext : (rest : ℚ) + 1 ≤ unit := by exact_mod_cast hrest
  have hzero : (0 : ℚ) ≤ rest := Nat.cast_nonneg rest
  push_cast at h
  have hlow : (number : ℚ) ≤ x := by
    refine le_of_mul_le_mul_right ?_ hunit
    linarith
  have hhigh : x < number + 1 := by
    refine lt_of_mul_lt_mul_right ?_ hunit.le
    linarith
  exact ((Nat.floor_eq_iff ((Nat.cast_nonneg number).trans hlow)).mpr ⟨hlow, hhigh⟩).symm

theorem ofDigits_eq_floor {d : DigitGroups} (hgroups : forall g, g ∈ d.groups -> g < 10000) :
    ofDigits (d.whole.toList ++ d.behindPoint.take d.scale) =
      ⌊total d.weight d.groups * tenPow d.scale⌋₊ := by
  rcases exists_ofDigits_shown_eq hgroups with ⟨rest, hrest, hdigits⟩
  have hsplit := total_append d.weight (d.groups.take d.shownCount) (d.groups.drop d.shownCount)
  rw [List.take_append_drop] at hsplit
  have hkept := total_nonneg (d.weight - (d.groups.take d.shownCount).length)
    (d.groups.drop d.shownCount)
  have hunits : (0 : ℚ) ≤ 10000 ^ groupsBehind d.scale := by positivity
  refine eq_floor_of_mul_eq hrest (mul_nonneg hkept hunits) (total_drop_lt hgroups) ?_
  rw [<- hdigits, ofDigits_shown_eq, hsplit, mul_assoc, <- cast_pow_groupsBehind, add_mul]

def value (d : DigitGroups) : ℚ :=
  signed (decide (d.sign = negativeSign)) (total d.weight d.groups)

/-- The number that is written out: digits behind the scale are cut off. -/
def shownValue (d : DigitGroups) : ℚ :=
  signed (decide (d.sign = negativeSign))
    (⌊total d.weight d.groups * tenPow d.scale⌋₊ / tenPow d.scale)

section

variable {d : DigitGroups} (hgroups : forall g, g ∈ d.groups -> g < 10000)

include hgroups

theorem toDecimal?_eq_pointed :
    d.toDecimal? = Decimal.ofPlain? ((if decide (d.sign = negativeSign) then ['-'] else []) ++
      Decimal.pointed d.whole.toList (d.behindPoint.take d.scale)) := by
  simp only [decide_eq_true_eq]
  exact toDecimal?_eq_ofPlain? (group_lt_of_mem hgroups)

theorem shownValue_eq_pointedValue :
    d.shownValue = Decimal.pointedValue (decide (d.sign = negativeSign)) d.whole.toList
      (d.behindPoint.take d.scale) := by
  rw [shownValue, Decimal.pointedValue, ofDigits_eq_floor hgroups,
    length_fraction (group_lt_of_mem hgroups)]

/-- What is read from groups is off by half a unit of its last digit at most. -/
theorem abs_toRat_sub_shownValue {x : Decimal} (h : d.toDecimal? = some x) :
    x.scale ≤ d.scale ∧ |x.toRat - d.shownValue| ≤ 1 / (2 * tenPow x.scale) := by
  rw [toDecimal?_eq_pointed hgroups] at h
  have hnear := Decimal.abs_toRat_sub_pointedValue (whole_ne_nil d)
    (fun c hc => isDigit_of_mem_shown hc) h
  rw [length_fraction (group_lt_of_mem hgroups)] at hnear
  rw [shownValue_eq_pointedValue hgroups]
  exact hnear

theorem exists_toRat_eq_shownValue (h : Decimal.IsDecimal d.shownValue) :
    exists x, d.toDecimal? = some x ∧ x.toRat = d.shownValue := by
  rw [toDecimal?_eq_pointed hgroups]
  rw [shownValue_eq_pointedValue hgroups] at h ⊢
  exact Decimal.exists_toRat_eq_pointedValue (whole_ne_nil d)
    (fun c hc => isDigit_of_mem_shown hc) h

/-- What is read is the number of the groups if all digits are written out and a decimal has the
number, and only then. -/
theorem toRat_eq_value_iff {x : Decimal} (h : d.toDecimal? = some x) :
    x.toRat = d.value <-> d.shownValue = d.value ∧ Decimal.IsDecimal d.value := by
  constructor
  · intro hvalue
    refine ⟨?_, x, hvalue⟩
    have hscale := (abs_toRat_sub_shownValue hgroups h).1
    -- The number is whole in units of the last digit that is read, so nothing is cut off.
    have hwhole : exists units : Nat, total d.weight d.groups * tenPow d.scale = units := by
      have hunsigned : |x.toRat| = total d.weight d.groups := by
        have hzero := abs_signed_sub (decide (d.sign = negativeSign)) (total d.weight d.groups) 0
        have hnone : forall negative, signed negative 0 = 0 := by
          intro negative
          cases negative <;> simp [signed]
        rw [hnone, sub_zero, sub_zero, abs_of_nonneg (total_nonneg _ _)] at hzero
        rw [hvalue, value, hzero]
      refine ⟨x.unscaled.natAbs * tenPow (d.scale - x.scale), ?_⟩
      have hpower : (tenPow d.scale : ℚ) = tenPow x.scale * tenPow (d.scale - x.scale) := by
        rw [<- cast_tenPow_add, Nat.add_sub_cancel' hscale]
      have hx := (cast_tenPow_pos x.scale).ne'
      have hmagnitude : |(x.unscaled : ℚ)| = x.unscaled.natAbs := by
        rw [Nat.cast_natAbs, Int.cast_abs]
      rw [<- hunsigned, Decimal.toRat, abs_div, abs_of_pos (cast_tenPow_pos _), hpower, hmagnitude]
      push_cast
      field_simp
    rcases hwhole with ⟨units, hunits⟩
    have hd := (cast_tenPow_pos d.scale).ne'
    rw [shownValue, value, hunits, Nat.floor_natCast, <- hunits, mul_div_cancel_right₀ _ hd]
  · rintro ⟨hshown, hdecimal⟩
    rcases exists_toRat_eq_shownValue hgroups (hshown ▸ hdecimal) with ⟨y, hy, hvalue⟩
    cases h.symm.trans hy
    exact hvalue.trans hshown

end

/-!
## Bytes of finite numbers
-/

/-- Groups of a finite number: each has four digits, and the sign is one. -/
structure IsFinite (d : DigitGroups) : Prop where
  group_lt : forall g, g ∈ d.groups -> g < 10000
  sign_eq : d.sign = 0 ∨ d.sign = negativeSign

/-- The bytes are all those of a finite number. -/
def Encodes (bytes : List UInt8) (q : ℚ) : Prop :=
  exists d : DigitGroups, d.FitsWords ∧ d.IsFinite ∧ d.write = bytes ∧ d.value = q

def announced (bytes : List UInt8) : Nat := (words bytes).headD 0

theorem length_words (bytes : List UInt8) : (words bytes).length = bytes.length / 2 := by
  fun_induction words bytes with
  | case1 a b rest ih =>
      rw [List.length_cons, ih, List.length_cons, List.length_cons]
      omega
  | case2 bytes hshort =>
      rcases bytes with _ | ⟨a, _ | ⟨b, rest⟩⟩
      · rfl
      · exact (Nat.div_eq_of_lt (Nat.lt_succ_self 1)).symm
      · exact absurd rfl (hshort a b rest)

theorem toNat_word_lt (a b : UInt8) : BigEndian.toNat [a, b] < 65536 := by
  have hpower : twoPow (8 * 2) = 65536 := by decide
  rw [<- hpower]
  exact BigEndian.toNat_lt [a, b]

theorem lt_of_mem_words {bytes : List UInt8} {w : Nat} (h : w ∈ words bytes) : w < 65536 := by
  fun_induction words bytes with
  | case1 a b rest ih =>
      rcases List.mem_cons.mp h with hfirst | hrest
      · rw [hfirst]
        exact toNat_word_lt a b
      · exact ih hrest
  | case2 bytes hshort => cases h

theorem flatMap_words {bytes : List UInt8} (h : bytes.length % 2 = 0) :
    (words bytes).flatMap (BigEndian.ofNat 2) = bytes := by
  fun_induction words bytes with
  | case1 a b rest ih =>
      have hword : BigEndian.ofNat 2 (BigEndian.toNat [a, b]) = [a, b] := by
        refine BigEndian.toNat_inj (BigEndian.length_ofNat _ _) ?_
        rw [BigEndian.toNat_ofNat]
        exact Nat.mod_eq_of_lt (BigEndian.toNat_lt [a, b])
      rw [List.length_cons, List.length_cons] at h
      rw [List.flatMap_cons, hword, ih (by omega)]
      rfl
  | case2 bytes hshort =>
      rcases bytes with _ | ⟨a, _ | ⟨b, rest⟩⟩
      · rfl
      · cases h
      · exact absurd rfl (hshort a b rest)

theorem length_write (d : DigitGroups) : d.write.length = 8 + 2 * d.groups.length := by
  have hgroups : (d.groups.flatMap (BigEndian.ofNat 2)).length = 2 * d.groups.length := by
    rw [List.length_flatMap]
    simp only [BigEndian.length_ofNat, List.map_const', List.sum_replicate_nat]
    exact Nat.mul_comm _ _
  rw [write]
  simp only [List.length_append, BigEndian.length_ofNat, BigEndian.length_ofInt, hgroups]

theorem exists_words {bytes : List UInt8} {d : DigitGroups} (h : read bytes = .ok d) :
    exists weight groups, words bytes = announced bytes :: weight :: d.sign :: d.scale :: groups ∧
      d.weight = Int.bmod weight 65536 ∧ d.groups = groups.take (announced bytes) := by
  rw [read] at h
  split at h
  · rename_i count weight sign scale groups hwords
    have hannounced : announced bytes = count := by
      rw [announced, hwords]
      rfl
    rw [hwords, hannounced]
    split at h
    · cases h
    · rw [<- Except.ok.inj h]
      refine ⟨weight, groups, rfl, ?_, rfl⟩
      dsimp only
  · cases h

theorem write_of_read {bytes : List UInt8} {d : DigitGroups} (h : read bytes = .ok d)
    (hlength : bytes.length = 8 + 2 * announced bytes) : d.FitsWords ∧ d.write = bytes := by
  rcases exists_words h with ⟨weight, groups, hwords, hweight, hgroups⟩
  have hlt : forall w, w ∈ announced bytes :: weight :: d.sign :: d.scale :: groups -> w < 65536 :=
    fun w hw => lt_of_mem_words (hwords ▸ hw)
  simp only [List.forall_mem_cons] at hlt
  rcases hlt with ⟨hannounced, hweightLt, hsign, hscale, hmore⟩
  have hcount : groups.length = announced bytes := by
    have hwhole := congrArg List.length hwords
    rw [length_words] at hwhole
    simp only [List.length_cons] at hwhole
    omega
  rw [<- hcount, List.take_length] at hgroups
  have hword : BigEndian.ofInt 2 d.weight = BigEndian.ofNat 2 weight := by
    have hvalue : (Int.bmod weight 65536).emod 65536 = weight :=
      (Int.bmod_emod (x := weight)).trans (Int.emod_eq_of_lt (by omega) (by omega))
    rw [hweight]
    exact congrArg (fun n : Int => BigEndian.ofNat 2 n.toNat) hvalue
  refine ⟨⟨by rw [hgroups]; omega, fun g hg => hmore g (hgroups ▸ hg), ?_, ?_, hsign, hscale⟩, ?_⟩
  · rw [hweight]
    exact (by decide : (-32768 : Int) = -(65536 / 2)) ▸ Int.le_bmod (by decide)
  · rw [hweight]
    exact lt_of_lt_of_le (Int.bmod_lt (by decide)) (by decide)
  · have hbytes : (words bytes).flatMap (BigEndian.ofNat 2) = bytes := flatMap_words (by omega)
    rw [hwords] at hbytes
    rw [write, hgroups, hcount, hword]
    simpa only [List.flatMap_cons, List.append_assoc] using hbytes

/-- Bytes are those of a finite number if none is missing or left over, and the words that are
read are groups of four digits and a sign. -/
theorem encodes_iff {bytes : List UInt8} {d : DigitGroups} (h : read bytes = .ok d) {q : ℚ} :
    Encodes bytes q <->
      bytes.length = 8 + 2 * announced bytes ∧ d.IsFinite ∧ d.value = q := by
  constructor
  · rintro ⟨d', hwords, hfinite, rfl, hvalue⟩
    have hsign : d'.sign ≠ nanSign := by
      rcases hfinite.sign_eq with hsign | hsign <;> rw [hsign] <;> decide
    cases h.symm.trans (read_write hwords hsign)
    have hannounced : announced d.write = d.groups.length := by
      rw [announced, write, List.append_assoc, List.append_assoc, List.append_assoc,
        words_ofNat hwords.length_lt]
      rfl
    exact ⟨by rw [length_write, hannounced], hfinite, hvalue⟩
  · rintro ⟨hlength, hfinite, hvalue⟩
    rcases write_of_read h hlength with ⟨hwords, hwrite⟩
    exact ⟨d, hwords, hfinite, hwrite, hvalue⟩

theorem decimalOfBytes_eq_ok_iff {bytes : List UInt8} {x : Decimal} :
    decimalOfBytes bytes = .ok x <-> exists d, read bytes = .ok d ∧ d.toDecimal? = some x := by
  rw [decimalOfBytes, Result.bind_eq_ok]
  refine exists_congr fun d => and_congr_right fun _ => ?_
  cases d.toDecimal? with
  | none => constructor <;> (intro h; cases h)
  | some y =>
      constructor
      · intro h
        exact congrArg some (Except.ok.inj h)
      · intro h
        exact congrArg Except.ok (Option.some.inj h)

theorem exists_error_of_header {bytes : List UInt8}
    (h : (words bytes).length < 4 ∨ (words bytes)[2]? = some nanSign) :
    exists e, decimalOfBytes bytes = .error e := by
  have hread : exists e, read bytes = .error e := by
    rw [read]
    split
    · rename_i count weight sign scale groups hwords
      rw [hwords] at h
      have hsign : sign = nanSign := by
        rcases h with hshort | hsign
        · simp only [List.length_cons] at hshort
          omega
        · exact Option.some.inj hsign
      exact ⟨_, if_pos hsign⟩
    · exact ⟨_, rfl⟩
  rcases hread with ⟨e, hread⟩
  exact ⟨e, by rw [decimalOfBytes, hread, Result.error_bind]⟩

/-- When a decimal that is read from bytes is the number that they encode, for every byte string
with a header of a number.  The bytes must be all those of groups of four digits and a sign, no
digit may be hidden behind the scale, and a decimal must have the number; then it is read.  Groups
of four digits are read within half a unit of the last digit of what is written out of them. -/
theorem decimals_read_exactly_iff (bytes : List UInt8) :
    ((words bytes).length < 4 ∨ (words bytes)[2]? = some nanSign ->
      exists e, decimalOfBytes bytes = .error e) ∧
    forall d, read bytes = .ok d ->
      (forall x, decimalOfBytes bytes = .ok x -> (Encodes bytes x.toRat <->
        bytes.length = 8 + 2 * announced bytes ∧ d.IsFinite ∧ d.shownValue = d.value ∧
          Decimal.IsDecimal d.value)) ∧
      ((forall g, g ∈ d.groups -> g < 10000) ->
        (forall x, decimalOfBytes bytes = .ok x ->
          |x.toRat - d.shownValue| ≤ 1 / (2 * tenPow x.scale)) ∧
        (Decimal.IsDecimal d.shownValue ->
          exists x, decimalOfBytes bytes = .ok x ∧ x.toRat = d.shownValue)) := by
  refine ⟨exists_error_of_header, ?_⟩
  intro d hread
  have hdecimal : forall x, decimalOfBytes bytes = .ok x <-> d.toDecimal? = some x := by
    intro x
    rw [decimalOfBytes_eq_ok_iff]
    constructor
    · rintro ⟨d', hd', hx⟩
      cases hread.symm.trans hd'
      exact hx
    · intro hx
      exact ⟨d, hread, hx⟩
  simp only [hdecimal]
  refine ⟨?_, ?_⟩
  · intro x hx
    rw [encodes_iff hread]
    constructor
    · rintro ⟨hlength, hfinite, hvalue⟩
      exact ⟨hlength, hfinite, (toRat_eq_value_iff hfinite.group_lt hx).mp hvalue.symm⟩
    · rintro ⟨hlength, hfinite, hexact⟩
      exact ⟨hlength, hfinite, ((toRat_eq_value_iff hfinite.group_lt hx).mpr hexact).symm⟩
  · intro hgroups
    exact ⟨fun x hx => (abs_toRat_sub_shownValue hgroups hx).2,
      exists_toRat_eq_shownValue hgroups⟩

def half : DigitGroups := ⟨[5000], -1, 0, 30⟩

theorem half_read :
    exists x, decimalOfBytes half.write = .ok x ∧ x.toRat = 1 / 2 ∧ Encodes half.write x.toRat := by
  have hread : read half.write = .ok half :=
    read_write ⟨by decide, by decide, by decide, by decide, by decide, by decide⟩ (by decide)
  have hgroups : forall g, g ∈ half.groups -> g < 10000 := by decide
  have hvalue : half.value = 1 / 2 := by norm_num [value, signed, total, half, negativeSign]
  have hshown : half.shownValue = half.value := by
    norm_num [shownValue, value, signed, total, half, negativeSign, tenPow]
  have hdecimal : Decimal.IsDecimal half.value :=
    ⟨{ unscaled := 5, scale := 1 }, by rw [hvalue]; norm_num [Decimal.toRat, tenPow]⟩
  rcases decimals_read_exactly_iff half.write with ⟨-, hall⟩
  rcases hall half hread with ⟨hexact, hrounded⟩
  rcases (hrounded hgroups).2 (hshown ▸ hdecimal) with ⟨x, hx, htoRat⟩
  refine ⟨x, hx, htoRat.trans (hshown.trans hvalue), (hexact x hx).mpr ?_⟩
  exact ⟨rfl, ⟨hgroups, .inl rfl⟩, hshown, hdecimal⟩

/-!
## Numbers that are read as others
-/

/-- Bytes are read, as a decimal that is not the number they encode. -/
def ReadsOtherwise (bytes : List UInt8) : Prop :=
  exists x, decimalOfBytes bytes = .ok x ∧ ¬ Encodes bytes x.toRat

def infinity : DigitGroups := ⟨[], 0, 0xD000, 32⟩

def missingBytes : List UInt8 := [0, 2, 0, 0, 0, 0, 0, 0, 0, 1]

def trailedBytes : List UInt8 := [0, 0, 0, 0, 0, 0, 0, 0, 0]

def tiny : DigitGroups := ⟨[5000], -8, 0, 29⟩

theorem decimals_read_otherwise :
    ReadsOtherwise infinity.write ∧ ReadsOtherwise missingBytes ∧
      ReadsOtherwise trailedBytes ∧ ReadsOtherwise tiny.write := by
  have hinfinity : read infinity.write = .ok infinity :=
    read_write ⟨by decide, by decide, by decide, by decide, by decide, by decide⟩ (by decide)
  have hmissing : read missingBytes = .ok ⟨[1], 0, 0, 0⟩ := by
    have hwords : words missingBytes = [2, 0, 0, 0, 1] := by decide
    rw [read, hwords]
    rfl
  have htrailed : read trailedBytes = .ok ⟨[], 0, 0, 0⟩ := by
    have hwords : words trailedBytes = [0, 0, 0, 0] := by decide
    rw [read, hwords]
    rfl
  have htiny : read tiny.write = .ok tiny :=
    read_write ⟨by decide, by decide, by decide, by decide, by decide, by decide⟩ (by decide)
  refine ⟨⟨{ unscaled := 0, scale := 28 }, ?_, ?_⟩, ⟨{ unscaled := 1, scale := 0 }, ?_, ?_⟩,
    ⟨{ unscaled := 0, scale := 0 }, ?_, ?_⟩, ⟨{ unscaled := 1, scale := 28 }, ?_, ?_⟩⟩
  · exact decimalOfBytes_eq_ok_iff.mpr ⟨_, hinfinity, by decide +kernel⟩
  · rw [encodes_iff hinfinity]
    rintro ⟨-, ⟨-, hsign⟩, -⟩
    exact absurd hsign (by decide)
  · exact decimalOfBytes_eq_ok_iff.mpr ⟨_, hmissing, by decide +kernel⟩
  · rw [encodes_iff hmissing]
    rintro ⟨hlength, -⟩
    exact absurd hlength (by decide)
  · exact decimalOfBytes_eq_ok_iff.mpr ⟨_, htrailed, by decide +kernel⟩
  · rw [encodes_iff htrailed]
    rintro ⟨hlength, -⟩
    exact absurd hlength (by decide)
  · exact decimalOfBytes_eq_ok_iff.mpr ⟨_, htiny, by decide +kernel⟩
  · rw [encodes_iff htiny]
    rintro ⟨-, -, hvalue⟩
    norm_num [value, signed, total, tiny, negativeSign, Decimal.toRat, tenPow] at hvalue

end DigitGroups
end Wire
end TypedQuery
