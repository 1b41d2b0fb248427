import Mathlib.Data.List.TakeWhile
import Mathlib.Data.Nat.Digits.Lemmas
import TypedQuery.Proofs.Result
import TypedQuery.Wire.Element

/-!
# Decimals in binary format

The server sends a decimal as its digits in groups of four, counted from the point, without the
zero groups at both ends, and with the number of fractional digits to show.  The reader writes the
digits out and reads them as a text, and so gets the decimal back digit by digit.
-/

namespace TypedQuery
namespace Wire

open Number

namespace DigitGroups

/-!
## What the server sends
-/

def groupsBehind (scale : Nat) : Nat := (scale + 3) / 4

/-- The digits of a decimal as one number, filled up with zeros to whole groups behind the
point. -/
def units (x : Decimal) : Nat := x.unscaled.natAbs * tenPow (4 * groupsBehind x.scale - x.scale)

/-- The groups write a decimal as the server does: up to the last group behind the point they are
the digits of the decimal, and no zero group stands at an end. -/
structure Writes (d : DigitGroups) (x : Decimal) : Prop where
  group_lt : forall g, g ∈ d.groups -> g < 10000
  first_ne : d.groups.head? ≠ some 0
  last_ne : d.groups.getLast? ≠ some 0
  value : exists zeros : Nat, d.groups.length + zeros = d.weight + 1 + groupsBehind x.scale ∧
    Nat.ofDigits 10000 (d.groups ++ List.replicate zeros 0).reverse = units x
  weight_of_nil : d.groups = [] -> d.weight = 0
  sign : d.sign = if x.unscaled < 0 then negativeSign else 0
  scale : d.scale = x.scale

def sent (x : Decimal) : DigitGroups where
  groups := ((Nat.digits 10000 (units x)).dropWhile (· == 0)).reverse
  weight :=
    if units x = 0 then 0
    else ((Nat.digits 10000 (units x)).length : Int) - groupsBehind x.scale - 1
  sign := if x.unscaled < 0 then negativeSign else 0
  scale := x.scale

theorem exists_zeros (x : Decimal) :
    exists zeros, (sent x).groups ++ List.replicate zeros 0 =
      (Nat.digits 10000 (units x)).reverse := by
  have hzeros : (Nat.digits 10000 (units x)).takeWhile (· == 0) =
      List.replicate ((Nat.digits 10000 (units x)).takeWhile (· == 0)).length 0 :=
    List.eq_replicate_of_mem fun g hg => by simpa using List.mem_takeWhile_imp hg
  refine ⟨((Nat.digits 10000 (units x)).takeWhile (· == 0)).length, ?_⟩
  rw [sent, <- List.reverse_replicate, <- hzeros, <- List.reverse_append,
    List.takeWhile_append_dropWhile]

theorem sent_writes (x : Decimal) : (sent x).Writes x := by
  rcases exists_zeros x with ⟨zeros, hgroups⟩
  have hvalue : Nat.ofDigits 10000 ((sent x).groups ++ List.replicate zeros 0).reverse =
      units x := by
    rw [hgroups, List.reverse_reverse, Nat.ofDigits_digits]
  constructor
  case group_lt =>
    intro g hg
    have hmem : g ∈ (Nat.digits 10000 (units x)).reverse :=
      hgroups ▸ List.mem_append_left _ hg
    exact Nat.digits_lt_base (by decide) (List.mem_reverse.mp hmem)
  case first_ne =>
    intro hfirst
    have hlast : (Nat.digits 10000 (units x)).getLast? = some 0 := by
      rw [<- List.head?_reverse, <- hgroups, List.head?_append, hfirst]
      rfl
    by_cases hunits : units x = 0
    · rw [hunits, Nat.digits_zero] at hlast
      cases hlast
    · have hne : Nat.digits 10000 (units x) ≠ [] := Nat.digits_ne_nil_iff_ne_zero.mpr hunits
      rw [List.getLast?_eq_some_getLast hne, Option.some.injEq] at hlast
      exact Nat.getLast_digit_ne_zero 10000 hunits hlast
  case last_ne =>
    rw [sent, List.getLast?_reverse]
    intro hlast
    have hnot := List.head?_dropWhile_not (· == 0) (Nat.digits 10000 (units x))
    rw [hlast] at hnot
    cases hnot
  case value =>
    by_cases hunits : units x = 0
    · have hnil : (sent x).groups = [] := by
        rw [sent, hunits, Nat.digits_zero]
        rfl
      have hweight : (sent x).weight = 0 := if_pos hunits
      refine ⟨groupsBehind x.scale + 1, ?_, ?_⟩
      · rw [hnil, List.length_nil]
        omega
      · rw [hnil, List.nil_append, List.reverse_replicate, Nat.ofDigits_replicate_zero, hunits]
    · refine ⟨zeros, ?_, hvalue⟩
      have hlength := congrArg List.length hgroups
      have hweight : (sent x).weight =
          ((Nat.digits 10000 (units x)).length : Int) - groupsBehind x.scale - 1 := if_neg hunits
      rw [List.length_append, List.length_replicate, List.length_reverse] at hlength
      omega
  case weight_of_nil =>
    intro hnil
    refine if_pos ?_
    rw [<- hvalue, hnil, List.nil_append, List.reverse_replicate, Nat.ofDigits_replicate_zero]
  case sign => rfl
  case scale => rfl

/-!
## Words
-/

structure FitsWords (d : DigitGroups) : Prop where
  length_lt : d.groups.length < 65536
  group_lt : forall g, g ∈ d.groups -> g < 65536
  weight_ge : -32768 ≤ d.weight
  weight_lt : d.weight < 32768
  sign_lt : d.sign < 65536
  scale_lt : d.scale < 65536

theorem words_ofNat {n : Nat} (hn : n < 65536) (rest : List UInt8) :
    words (BigEndian.ofNat 2 n ++ rest) = n :: words rest := by
  have hword : BigEndian.toNat (BigEndian.ofNat 2 n) = n :=
    (BigEndian.toNat_ofNat 2 n).trans (Nat.mod_eq_of_lt hn)
  exact congrArg (· :: words rest) hword

theorem words_groups {groups : List Nat} (h : forall g, g ∈ groups -> g < 65536) :
    words (groups.flatMap (BigEndian.ofNat 2)) = groups := by
  induction groups with
  | nil => rfl
  | cons g more ih =>
      rw [List.flatMap_cons, words_ofNat (h g List.mem_cons_self),
        ih fun g hg => h g (List.mem_cons_of_mem _ hg)]

theorem words_ofInt (n : Int) (rest : List UInt8) :
    words (BigEndian.ofInt 2 n ++ rest) = (n % 65536).toNat :: words rest := by
  have hlt : (n % 65536).toNat < 65536 := by omega
  exact words_ofNat hlt rest

theorem read_write {d : DigitGroups} (hd : d.FitsWords) (hsign : d.sign ≠ nanSign) :
    read d.write = .ok d := by
  have hwords : words d.write =
      d.groups.length :: (d.weight % 65536).toNat :: d.sign :: d.scale :: d.groups := by
    rw [write, List.append_assoc, List.append_assoc, List.append_assoc, words_ofNat hd.length_lt,
      words_ofInt, words_ofNat hd.sign_lt, words_ofNat hd.scale_lt, words_groups hd.group_lt]
  have hweight : Int.bmod (d.weight % 65536).toNat 65536 = d.weight := by
    have hlow := hd.weight_ge
    have hhigh := hd.weight_lt
    rw [Int.toNat_of_nonneg (by omega)]
    exact (Int.emod_bmod d.weight 65536).trans (Int.bmod_eq_of_le_mul_two (by omega) (by omega))
  rw [read, hwords]
  dsimp only
  rw [if_neg hsign, List.take_length, hweight]

/-!
## Digits of groups
-/

def span (d : DigitGroups) (position : Int) : Nat -> List Nat
  | 0 => []
  | count + 1 => d.group position :: d.span (position + 1) count

theorem span_append (d : DigitGroups) (position : Int) (count more : Nat) :
    d.span position count ++ d.span (position + count) more = d.span position (count + more) := by
  induction count generalizing position with
  | zero => simp [span]
  | succ count ih =>
      have hnext : position + (count + 1 : Nat) = position + 1 + count := by omega
      rw [hnext, Nat.add_right_comm, span, span, List.cons_append, ih]

def digitsOf (groups : List Nat) : List Char := groups.flatMap fun g => (padded 4 g).toList

theorem digitsOf_cons (g : Nat) (more : List Nat) :
    digitsOf (g :: more) = (padded 4 g).toList ++ digitsOf more := List.flatMap_cons

theorem digitsOf_append (groups more : List Nat) :
    digitsOf (groups ++ more) = digitsOf groups ++ digitsOf more := List.flatMap_append

theorem toList_digits (d : DigitGroups) (position : Int) (count : Nat) :
    (d.digits position count).toList = digitsOf (d.span position count) := by
  induction count generalizing position with
  | zero => rfl
  | succ count ih => rw [digits, span, String.toList_append, ih, digitsOf_cons]

theorem isDigit_of_mem_digitsOf {groups : List Nat} {c : Char} (h : c ∈ digitsOf groups) :
    c.isDigit = true := by
  rcases List.mem_flatMap.mp h with ⟨g, -, hc⟩
  exact isDigit_of_mem_padded hc

theorem length_digitsOf {groups : List Nat} (h : forall g, g ∈ groups -> g < 10000) :
    (digitsOf groups).length = 4 * groups.length := by
  induction groups with
  | nil => rfl
  | cons g more ih =>
      have hfirst : (padded 4 g).toList.length = 4 :=
        length_padded (by decide) (h g List.mem_cons_self)
      have hmore := ih fun g hg => h g (List.mem_cons_of_mem _ hg)
      rw [digitsOf_cons, List.length_append, hfirst, hmore, List.length_cons]
      omega

theorem ofDigits_digitsOf {groups : List Nat} (h : forall g, g ∈ groups -> g < 10000) :
    ofDigits (digitsOf groups) = Nat.ofDigits 10000 groups.reverse := by
  induction groups with
  | nil => rfl
  | cons g more ih =>
      have hmore : forall g, g ∈ more -> g < 10000 := fun g hg => h g (List.mem_cons_of_mem _ hg)
      have hpower : tenPow (4 * more.length) = 10000 ^ more.length := Nat.pow_mul 10 4 _
      rw [digitsOf_cons, ofDigits_append, ofDigits_padded, length_digitsOf hmore, hpower, ih hmore,
        List.reverse_cons, Nat.ofDigits_append, Nat.ofDigits_singleton, List.length_reverse,
        Nat.mul_comm, Nat.add_comm]

theorem ofDigits_toString_append (g : Nat) (more : List Nat) :
    ofDigits ((toString g).toList ++ digitsOf more) = ofDigits (digitsOf (g :: more)) := by
  rw [digitsOf_cons, ofDigits_append, ofDigits_append, ofDigits_toString, ofDigits_padded]

/-!
## The text of groups
-/

/-- The groups that are written out: from the first one, or the point if that is before it, to
the last one that the scale asks for. -/
def shown (d : DigitGroups) : List Nat :=
  if d.weight < 0 then d.span (d.weight + 1) (groupsBehind d.scale)
  else d.span 0 (d.weight.toNat + groupsBehind d.scale + 1)

def behindPoint (d : DigitGroups) : List Char :=
  digitsOf (d.span (d.weight + 1) (groupsBehind d.scale))

section

variable {d : DigitGroups} (hgroups : forall position, d.group position < 10000)

include hgroups

theorem lt_of_mem_span {position : Int} {count g : Nat} (h : g ∈ d.span position count) :
    g < 10000 := by
  induction count generalizing position with
  | zero => cases h
  | succ count ih =>
      rcases List.mem_cons.mp h with rfl | hmore
      · exact hgroups position
      · exact ih hmore

theorem ofDigits_whole_append :
    ofDigits (d.whole.toList ++ d.behindPoint) = Nat.ofDigits 10000 d.shown.reverse := by
  have hspan : forall position count,
      ofDigits (digitsOf (d.span position count)) =
        Nat.ofDigits 10000 (d.span position count).reverse :=
    fun position count => ofDigits_digitsOf fun g => lt_of_mem_span hgroups
  by_cases hweight : d.weight < 0
  · have hzero : ofDigits ("0".toList ++ d.behindPoint) = ofDigits d.behindPoint := by
      rw [ofDigits_append, show ofDigits "0".toList = 0 from ofDigits_zeros 1, Nat.zero_mul,
        Nat.zero_add]
    rw [whole, if_pos hweight, hzero, shown, if_pos hweight]
    exact hspan _ _
  · have hnext : d.weight + 1 = 1 + (d.weight.toNat : Int) := by omega
    rw [whole, if_neg hweight, String.toList_append, toList_digits, behindPoint, List.append_assoc,
      <- digitsOf_append, hnext, span_append, ofDigits_toString_append, shown, if_neg hweight]
    exact hspan 0 (d.weight.toNat + groupsBehind d.scale + 1)

theorem length_behindPoint : d.behindPoint.length = 4 * groupsBehind d.scale := by
  have hlength : forall position count, (d.span position count).length = count := by
    intro position count
    induction count generalizing position with
    | zero => rfl
    | succ count ih => rw [span, List.length_cons, ih]
  rw [behindPoint, length_digitsOf fun g => lt_of_mem_span hgroups, hlength]

theorem length_fraction : (d.behindPoint.take d.scale).length = d.scale := by
  rw [List.length_take, length_behindPoint hgroups, groupsBehind]
  omega

end

theorem toList_fraction (d : DigitGroups) :
    d.fraction.toList = d.behindPoint.take d.scale := by
  rw [fraction, String.toList_ofList, toList_digits]
  rfl

theorem isDigit_of_mem_whole {d : DigitGroups} {c : Char} (h : c ∈ d.whole.toList) :
    c.isDigit = true := by
  rw [whole] at h
  split at h
  · rw [List.mem_singleton.mp h]
    rfl
  · rw [String.toList_append, toList_digits, List.mem_append] at h
    rcases h with h | h
    · exact isDigit_of_mem_toString h
    · exact isDigit_of_mem_digitsOf h

theorem whole_ne_nil (d : DigitGroups) : d.whole.toList ≠ [] := by
  rw [whole]
  split
  · exact List.cons_ne_nil '0' []
  · rw [String.toList_append]
    exact List.append_ne_nil_of_left_ne_nil (toString_ne_nil _) _

theorem toList_toText {d : DigitGroups} (hgroups : forall position, d.group position < 10000) :
    d.toText.toList = (if d.sign = negativeSign then ['-'] else []) ++
      Decimal.pointed d.whole.toList (d.behindPoint.take d.scale) := by
  have hfraction := length_fraction hgroups
  rw [toText, String.toList_append, String.toList_append]
  by_cases hscale : d.scale = 0
  · rw [if_pos hscale, hscale, List.take_zero, apply_ite String.toList, List.append_assoc,
      show "".toList = [] from rfl, List.append_nil]
    rfl
  · cases hdigits : d.behindPoint.take d.scale with
    | nil =>
        rw [hdigits] at hfraction
        exact absurd hfraction.symm hscale
    | cons c rest =>
        rw [if_neg hscale, String.toList_append, toList_fraction, hdigits,
          apply_ite String.toList, List.append_assoc]
        rfl

theorem ofText?_eq_ofPlain? {text : String}
    (h : forall c, c ∈ text.toList -> c ≠ 'e' ∧ c ≠ 'E') :
    Decimal.ofText? text = Decimal.ofPlain? text.toList := by
  have hplain : forall c, c ∈ text.toList -> (!(c == 'e' || c == 'E')) = true := by
    intro c hc
    simpa using h c hc
  rw [Decimal.ofText?]
  dsimp only
  rw [List.dropWhile_eq_nil_iff.mpr hplain, List.takeWhile_eq_self_iff.mpr hplain]

theorem ne_letter_of_mem_pointed {whole fraction : List Char}
    (hdigits : forall c, c ∈ whole ++ fraction -> c.isDigit = true) {c : Char}
    (h : c ∈ Decimal.pointed whole fraction) : c ≠ 'e' ∧ c ≠ 'E' := by
  have hcases : c = '.' ∨ c ∈ whole ++ fraction := by
    cases fraction with
    | nil => exact .inr (List.mem_append_left [] h)
    | cons d rest =>
        simp only [Decimal.pointed, List.mem_append, List.mem_cons] at h ⊢
        tauto
  rcases hcases with rfl | hmem
  · decide
  · have hc := hdigits c hmem
    constructor <;> (rintro rfl; exact absurd hc (by decide))

theorem isDigit_of_mem_digits {d : DigitGroups} {c : Char}
    (h : c ∈ d.whole.toList ++ d.behindPoint) : c.isDigit = true := by
  rcases List.mem_append.mp h with h | h
  · exact isDigit_of_mem_whole h
  · exact isDigit_of_mem_digitsOf h

theorem isDigit_of_mem_shown {d : DigitGroups} {c : Char}
    (h : c ∈ d.whole.toList ++ d.behindPoint.take d.scale) : c.isDigit = true := by
  rcases List.mem_append.mp h with h | h
  · exact isDigit_of_mem_digits (List.mem_append_left _ h)
  · exact isDigit_of_mem_digits (List.mem_append_right _ (List.mem_of_mem_take h))

/-- Groups are read as a plain text of their digits, cut off at the scale. -/
theorem toDecimal?_eq_ofPlain? {d : DigitGroups}
    (hgroups : forall position, d.group position < 10000) :
    d.toDecimal? = Decimal.ofPlain? ((if d.sign = negativeSign then ['-'] else []) ++
      Decimal.pointed d.whole.toList (d.behindPoint.take d.scale)) := by
  have hplain : forall c, c ∈ d.toText.toList -> c ≠ 'e' ∧ c ≠ 'E' := by
    intro c hc
    rw [toList_toText hgroups, List.mem_append] at hc
    rcases hc with hc | hc
    · split at hc
      · rw [List.mem_singleton.mp hc]
        decide
      · cases hc
    · exact ne_letter_of_mem_pointed (fun c hc => isDigit_of_mem_shown hc) hc
  rw [toDecimal?, ofText?_eq_ofPlain? hplain, toList_toText hgroups]

/-- Groups are read as the number that their digits make up, if it fits. -/
theorem toDecimal?_eq {d : DigitGroups} (hgroups : forall position, d.group position < 10000)
    (hscale : d.scale ≤ Decimal.maxScale) {magnitude : Nat} (hfit : magnitude < twoPow 96)
    (hvalue : Nat.ofDigits 10000 d.shown.reverse =
      magnitude * tenPow (4 * groupsBehind d.scale - d.scale)) :
    d.toDecimal? = Decimal.ofParts?
      (if d.sign = negativeSign then -(magnitude : Int) else magnitude) d.scale := by
  have hmagnitude : ofDigits (d.whole.toList ++ d.behindPoint.take d.scale) = magnitude := by
    have hcut : forall c, c ∈ d.behindPoint.drop d.scale -> c.isDigit = true := fun c hc =>
      isDigit_of_mem_digits (List.mem_append_right _ (List.mem_of_mem_drop hc))
    refine ofDigits_of_append hcut ?_
    rw [List.append_assoc, List.take_append_drop, ofDigits_whole_append hgroups, hvalue,
      List.length_drop, length_behindPoint hgroups]
  have hread := Decimal.ofPlain?_pointed (decide (d.sign = negativeSign)) (whole_ne_nil d)
    (fun c hc => isDigit_of_mem_shown hc)
    (by rw [length_fraction hgroups]; exact hscale) (by rw [hmagnitude]; exact hfit)
  rw [hmagnitude, length_fraction hgroups] at hread
  simp only [decide_eq_true_eq] at hread
  rw [toDecimal?_eq_ofPlain? hgroups, hread]

/-!
## The groups that are sent
-/

section

variable {d : DigitGroups} {groups : List Nat}
  (hgroups : forall i : Nat, i < groups.length -> d.group i = (groups[i]?).getD 0)

include hgroups

theorem span_of_groups {i count : Nat} (hcount : i + count = groups.length) :
    d.span i count = groups.drop i := by
  induction count generalizing i with
  | zero => rw [span, List.drop_of_length_le (by omega)]
  | succ count ih =>
      have hlt : i < groups.length := by omega
      have hrest : d.span ((i + 1 : Nat) : Int) count = groups.drop (i + 1) := ih (by omega)
      have hnext : (i : Int) + 1 = ((i + 1 : Nat) : Int) := rfl
      rw [span, hgroups i hlt, List.getElem?_eq_getElem hlt, hnext, hrest,
        List.drop_eq_getElem_cons hlt]
      rfl

theorem span_of_zeros (zeros : Nat) :
    d.span (-zeros) (zeros + groups.length) = List.replicate zeros 0 ++ groups := by
  have hzeros : d.span (-zeros) zeros = List.replicate zeros 0 := by
    induction zeros with
    | zero => rfl
    | succ zeros ih =>
        have hnext : -((zeros + 1 : Nat) : Int) + 1 = -zeros := by omega
        rw [span, hnext, ih, group, if_pos (by omega), List.replicate_succ]
  have hall : d.span ((0 : Nat) : Int) groups.length = groups :=
    span_of_groups hgroups (Nat.zero_add _)
  rw [<- span_append, hzeros, Int.add_left_neg]
  exact congrArg (List.replicate zeros 0 ++ ·) hall

/-- If the groups go as far as the scale asks for, they are written out, maybe behind zeros. -/
theorem exists_shown (hlength : (groups.length : Int) = d.weight + 1 + groupsBehind d.scale) :
    exists zeros, d.shown = List.replicate zeros 0 ++ groups := by
  by_cases hpoint : d.weight < 0
  · refine ⟨(-(d.weight + 1)).toNat, ?_⟩
    have hposition : d.weight + 1 = -((-(d.weight + 1)).toNat : Int) := by omega
    have hcount : groupsBehind d.scale = (-(d.weight + 1)).toNat + groups.length := by omega
    rw [shown, if_pos hpoint, <- span_of_zeros hgroups, <- hposition, <- hcount]
  · refine ⟨0, ?_⟩
    have hcount : d.weight.toNat + groupsBehind d.scale + 1 = 0 + groups.length := by omega
    rw [shown, if_neg hpoint, <- span_of_zeros hgroups, <- hcount]
    rfl

end

theorem units_lt (x : Decimal) : units x < 10000 ^ 8 := by
  have hzeros : tenPow (4 * groupsBehind x.scale - x.scale) ≤ 1000 := by
    have hle : 4 * groupsBehind x.scale - x.scale ≤ 3 := by
      rw [groupsBehind]
      omega
    exact Nat.pow_le_pow_right (by decide) hle
  calc units x ≤ x.unscaled.natAbs * 1000 := Nat.mul_le_mul_left _ hzeros
    _ < twoPow 96 * 1000 := Nat.mul_lt_mul_of_pos_right x.bounded (by decide)
    _ ≤ 10000 ^ 8 := by decide

theorem group_eq_getD (d : DigitGroups) (zeros i : Nat) :
    d.group i = ((d.groups ++ List.replicate zeros 0)[i]?).getD 0 := by
  rw [group, if_neg (by omega), Int.toNat_natCast, List.getElem?_append]
  split
  · rfl
  · rename_i hlength
    rw [List.getElem?_eq_none (by omega), List.getElem?_replicate]
    split <;> rfl

theorem group_lt_of_mem {d : DigitGroups} (h : forall g, g ∈ d.groups -> g < 10000)
    (position : Int) : d.group position < 10000 := by
  rw [group]
  split
  · decide
  · cases hg : d.groups[position.toNat]? with
    | none => decide
    | some g => exact h g (List.mem_of_getElem? hg)

namespace Writes

variable {d : DigitGroups} {x : Decimal} (h : d.Writes x)

include h

theorem group_lt_of_position (position : Int) : d.group position < 10000 :=
  group_lt_of_mem h.group_lt position

theorem ofDigits_shown : Nat.ofDigits 10000 d.shown.reverse = units x := by
  rcases h.value with ⟨zeros, hlength, hvalue⟩
  have hall : ((d.groups ++ List.replicate zeros 0).length : Int) =
      d.weight + 1 + groupsBehind d.scale := by
    rw [List.length_append, List.length_replicate, h.scale]
    omega
  rcases exists_shown (fun i _ => d.group_eq_getD zeros i) hall with ⟨before, hshown⟩
  rw [hshown, List.reverse_append, List.reverse_replicate, Nat.ofDigits_append_replicate_zero,
    hvalue]

theorem length_le {zeros : Nat} (hne : d.groups ≠ [])
    (hvalue : Nat.ofDigits 10000 (d.groups ++ List.replicate zeros 0).reverse = units x) :
    d.groups.length + zeros ≤ 8 := by
  have hlt : forall g, g ∈ (d.groups ++ List.replicate zeros 0).reverse -> g < 10000 := by
    intro g hg
    rcases List.mem_append.mp (List.mem_reverse.mp hg) with hg | hg
    · exact h.group_lt g hg
    · rw [List.eq_of_mem_replicate hg]
      decide
  have hdigits : Nat.digits 10000 (units x) = (d.groups ++ List.replicate zeros 0).reverse := by
    rw [<- hvalue]
    refine Nat.digits_ofDigits 10000 (by decide) _ hlt fun hall hzero => ?_
    have hlast := List.getLast?_eq_some_getLast hall
    rw [hzero, List.getLast?_reverse, List.head?_append_of_ne_nil _ hne] at hlast
    exact h.first_ne hlast
  have hlength := (Nat.digits_length_le_iff (by decide) (units x)).mpr (units_lt x)
  rw [hdigits, List.length_reverse, List.length_append, List.length_replicate] at hlength
  exact hlength

theorem fitsWords : d.FitsWords := by
  rcases h.value with ⟨zeros, hlength, hvalue⟩
  have hscale := x.scale_le
  have hbounds : d.groups.length ≤ 8 ∧ -8 ≤ d.weight ∧ d.weight ≤ 8 := by
    by_cases hne : d.groups = []
    · rw [hne, h.weight_of_nil hne]
      decide
    · have height := h.length_le hne hvalue
      have hpos := List.length_pos_of_ne_nil hne
      rw [groupsBehind] at hlength
      omega
  refine ⟨by omega, fun g hg => (h.group_lt g hg).trans (by decide), by omega, by omega, ?_, ?_⟩
  · rw [h.sign]
    split <;> decide
  · rw [h.scale]
    omega

theorem sign_eq : d.sign ≠ nanSign ∧ (d.sign = negativeSign <-> x.unscaled < 0) := by
  rw [h.sign]
  split
  · rename_i hneg
    exact ⟨by decide, by simpa using hneg⟩
  · rename_i hneg
    exact ⟨by decide, by simpa [negativeSign] using hneg⟩

end Writes

/-- Every decimal is sent, and whatever groups write it are read as the same number with the same
number of fractional digits. -/
theorem sent_decimal_read (x : Decimal) :
    (exists d : DigitGroups, d.Writes x) ∧
      forall d : DigitGroups, d.Writes x -> decimalOfBytes d.write = .ok x := by
  refine ⟨⟨sent x, sent_writes x⟩, fun d h => ?_⟩
  have hread := toDecimal?_eq h.group_lt_of_position (h.scale ▸ x.scale_le) x.bounded
    (h.scale ▸ h.ofDigits_shown)
  rcases h.sign_eq with ⟨hnumber, hsign⟩
  have hunscaled : (if d.sign = negativeSign then -(x.unscaled.natAbs : Int)
      else x.unscaled.natAbs) = x.unscaled := by
    rw [if_congr hsign rfl rfl]
    omega
  rw [decimalOfBytes, read_write h.fitsWords hnumber, Result.ok_bind, hread, hunscaled, h.scale]
  exact congrArg readable (Decimal.ofParts?_self x)

def overdraft : Decimal := { unscaled := -1200000, scale := 2 }

theorem overdraft_read :
    Writes ⟨[1, 2000], 1, negativeSign, 2⟩ overdraft ∧
      decimalOfBytes [0, 2, 0, 1, 64, 0, 0, 2, 0, 1, 7, 208] = .ok overdraft := by
  have hwrites : Writes ⟨[1, 2000], 1, negativeSign, 2⟩ overdraft :=
    ⟨by decide, by decide, by decide, ⟨1, by decide, by decide⟩, by decide, by decide, rfl⟩
  exact ⟨hwrites, (sent_decimal_read overdraft).2 _ hwrites⟩

end DigitGroups
end Wire
end TypedQuery
