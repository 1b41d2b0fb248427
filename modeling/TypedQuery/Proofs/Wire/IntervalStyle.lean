import TypedQuery.Proofs.Wire.ClockReading
import TypedQuery.Proofs.Wire.IntervalGuard

/-!
# Intervals in the server's own style

The server writes the years, months and days that are not zero, each with its unit, and behind them
a clock reading if there are microseconds or if nothing else was written.  Every field has a sign of
its own, and a field that is not negative shows a plus behind a negative one.
-/

namespace TypedQuery
namespace Wire

open Number

namespace IntervalText

open Guarded

open ClockReading (isDigit_iff not_isBlank_of_isDigit)

/-!
## The style
-/

def Period.unit : Period -> String
  | .year => "year"
  | .month => "mon"
  | .day => "day"

def signText (negative behind : Bool) : List Char :=
  if negative then ['-'] else if behind then ['+'] else []

/-- A number and its unit, which is in the plural unless the number is one; nothing for zero. -/
def amountWords (p : Period) (behind : Bool) (n : Int) : List (List Char) :=
  if n = 0 then []
  else
    [signText (n < 0) behind ++ (toString n.natAbs).toList,
      (if n = 1 then p.unit else p.unit ++ "s").toList]

/-- Whether the last field is negative, once a number has been written; zeros are not. -/
def isBehind (behind : Bool) (n : Int) : Bool := if n = 0 then behind else n < 0

def clockWord (behind : Bool) (micros : Int) : List Char :=
  signText (micros < 0) behind ++ ClockReading.text micros.natAbs

def amounts (i : Interval) : List (List Char) :=
  let years := i.months.toInt.tdiv 12
  let months := i.months.toInt.tmod 12
  amountWords .year false years ++ amountWords .month (isBehind false years) months ++
    amountWords .day (isBehind (isBehind false years) months) i.days.toInt

def isClockBehind (i : Interval) : Bool :=
  isBehind (isBehind (isBehind false (i.months.toInt.tdiv 12)) (i.months.toInt.tmod 12))
    i.days.toInt

def styleWords (i : Interval) : List (List Char) :=
  if amounts i = [] ∨ i.microseconds ≠ 0 then
    amounts i ++ [clockWord (isClockBehind i) i.microseconds.toInt]
  else amounts i

def styled (i : Interval) : List Char := [' '].intercalate (styleWords i)

example :
    styled ⟨14, -3, 14706500000⟩ = "1 year 2 mons -3 days +04:05:06.5".toList := by decide

/-!
## Words of the style
-/

theorem utf8Size_of_isDigit {c : Char} (h : c.isDigit = true) : c.utf8Size = 1 := by
  rcases isDigit_iff.mp h with ⟨-, hhigh⟩
  refine Char.utf8Size_eq_one_iff.mpr ?_
  show c.toNat ≤ 127
  omega

def IsFigure (c : Char) : Prop := c.isDigit = true ∨ c ∈ ['-', '+', ':', '.']

theorem IsFigure.not_isBlank {c : Char} (h : IsFigure c) : Text.isBlank c = false := by
  rcases h with h | h
  · exact not_isBlank_of_isDigit h
  · simp only [List.mem_cons, List.not_mem_nil, or_false] at h
    rcases h with rfl | rfl | rfl | rfl <;> decide

theorem mem_signText {negative behind : Bool} {c : Char} (h : c ∈ signText negative behind) :
    c = '-' ∨ c = '+' := by
  cases negative <;> cases behind <;> simp_all [signText]

theorem isFigure_of_mem_text {micros : Nat} {c : Char} (h : c ∈ ClockReading.text micros) :
    IsFigure c := by
  have hfraction : forall n, c ∈ ClockReading.fractionText n -> IsFigure c := by
    intro n hc
    rw [ClockReading.fractionText] at hc
    split at hc
    · cases hc
    · rcases List.mem_cons.mp hc with rfl | hc
      · exact .inr (by decide)
      · exact .inl (ClockReading.isDigit_of_mem_fractionDigits hc)
  simp only [ClockReading.text, List.mem_append, List.mem_cons] at h
  rcases h with h | rfl | h | rfl | h | h
  · exact .inl (ClockReading.isDigit_of_mem_twoDigits h)
  · exact .inr (by decide)
  · exact .inl (ClockReading.isDigit_of_mem_twoDigits h)
  · exact .inr (by decide)
  · exact .inl (ClockReading.isDigit_of_mem_twoDigits h)
  · exact hfraction _ h

theorem isFigure_of_mem_clockWord {behind : Bool} {micros : Int} {c : Char}
    (h : c ∈ clockWord behind micros) : IsFigure c := by
  rcases List.mem_append.mp h with h | h
  · rcases mem_signText h with rfl | rfl <;> exact .inr (by decide)
  · exact isFigure_of_mem_text h

def IsWord (word : List Char) : Prop := word ≠ [] ∧ forall c, c ∈ word -> Text.isBlank c = false

theorem isWord_of_mem_amountWords {p : Period} {behind : Bool} {n : Int} {word : List Char}
    (h : word ∈ amountWords p behind n) : IsWord word := by
  rw [amountWords] at h
  split at h
  · cases h
  · simp only [List.mem_cons, List.not_mem_nil, or_false] at h
    rcases h with rfl | rfl
    · refine ⟨List.append_ne_nil_of_right_ne_nil _ (toString_ne_nil _), fun c hc => ?_⟩
      refine IsFigure.not_isBlank ?_
      rcases List.mem_append.mp hc with hc | hc
      · rcases mem_signText hc with rfl | rfl <;> exact .inr (by decide)
      · exact .inl (isDigit_of_mem_toString hc)
    · have hunit : (if n = 1 then p.unit else p.unit ++ "s").toList.all (!Text.isBlank ·) := by
        cases p <;> split <;> decide
      refine ⟨?_, fun c hc => ?_⟩
      · cases p <;> split <;> decide
      · simpa using List.all_eq_true.mp hunit c hc

theorem isWord_clockWord (behind : Bool) (micros : Int) : IsWord (clockWord behind micros) := by
  refine ⟨?_, fun c hc => (isFigure_of_mem_clockWord hc).not_isBlank⟩
  exact List.append_ne_nil_of_right_ne_nil _ (ClockReading.text_ne_nil _)

theorem isWord_of_mem_amounts {i : Interval} {word : List Char} (h : word ∈ amounts i) :
    IsWord word := by
  simp only [amounts, List.mem_append] at h
  rcases h with (h | h) | h <;> exact isWord_of_mem_amountWords h

theorem words_styled (i : Interval) : Text.words (styled i) = styleWords i := by
  refine Text.words_intercalate fun word h => ?_
  rw [styleWords] at h
  split at h
  · rcases List.mem_append.mp h with h | h
    · exact isWord_of_mem_amounts h
    · rw [List.mem_singleton.mp h]
      exact isWord_clockWord _ _
  · exact isWord_of_mem_amounts h

/-!
## Numbers of the style
-/

theorem takeSign_signText {negative behind : Bool} {cs : List Char}
    (h : forall c, cs.head? = some c -> c.isDigit = true) :
    takeSign (signText negative behind ++ cs) = (negative, cs) := by
  cases negative with
  | true => rfl
  | false =>
      cases behind with
      | true => rfl
      | false =>
          rw [signText, if_neg Bool.false_ne_true, if_neg Bool.false_ne_true, List.nil_append]
          cases cs with
          | nil => rfl
          | cons c rest =>
              have hc := h c rfl
              rw [takeSign]
              · rintro rest' ⟨⟩
                cases hc
              · rintro rest' ⟨⟩
                cases hc

theorem readNat?_digits {digits : List Char} (hne : digits ≠ [])
    (hdigits : forall c, c ∈ digits -> c.isDigit = true) :
    readNat? digits = some (ofDigits digits) := by
  cases digits with
  | nil => exact absurd rfl hne
  | cons c rest => exact if_pos (List.all_eq_true.mpr hdigits)

theorem readInt?_signText {low high n : Int} {digits : List Char} (negative behind : Bool)
    (hne : digits ≠ []) (hdigits : forall c, c ∈ digits -> c.isDigit = true)
    (hn : (if negative then -(ofDigits digits : Int) else ofDigits digits) = n)
    (hlow : low ≤ n) (hhigh : n ≤ high) :
    readInt? low high (signText negative behind ++ digits) = some n := by
  have hhead : forall c, digits.head? = some c -> c.isDigit = true := by
    intro c hc
    exact hdigits c (List.mem_of_mem_head? hc)
  rw [readInt?, takeSign_signText hhead]
  simp only [readNat?_digits hne hdigits, Option.bind_eq_bind, Option.bind_some, hn]
  exact if_pos (by simp [hlow, hhigh])

theorem readInt32?_amount {n : Int} (hn : Fits 32 n) (behind : Bool) :
    readInt32? (signText (n < 0) behind ++ (toString n.natAbs).toList) = some n := by
  refine readInt?_signText _ behind (toString_ne_nil _) (fun c => isDigit_of_mem_toString) ?_ hn.1
    (Int.le_sub_one_of_lt hn.2)
  rw [ofDigits_toString]
  split
  · rename_i hnegative
    have := of_decide_eq_true hnegative
    omega
  · rename_i hnegative
    simp only [decide_eq_true_eq] at hnegative
    omega

theorem readInt64?_digits {digits : List Char} (hne : digits ≠ [])
    (hdigits : forall c, c ∈ digits -> c.isDigit = true) (hfits : Fits 64 (ofDigits digits)) :
    readInt64? digits = some (ofDigits digits : Int) :=
  readInt?_signText false false hne hdigits rfl hfits.1
    (Int.le_sub_one_of_lt hfits.2)

/-!
## Clock readings
-/

theorem splitAt_append {c : Char} {front : List Char} (h : c ∉ front) (rest : List Char) :
    splitAt c (front ++ c :: rest) = (front, some rest) := by
  have hne : forall d, d ∈ front -> (d != c) = true := by
    intro d hd
    exact bne_iff_ne.mpr fun heq => h (heq ▸ hd)
  have hstop : (c :: rest).dropWhile (· != c) = c :: rest := by
    rw [List.dropWhile_cons_of_neg (by simp)]
  have htake : (c :: rest).takeWhile (· != c) = [] := by
    rw [List.takeWhile_cons_of_neg (by simp)]
  rw [splitAt, List.dropWhile_append_of_pos hne, hstop, List.takeWhile_append_of_pos hne, htake,
    List.append_nil]

theorem splitAt_eq_none {c : Char} {cs : List Char} (h : c ∉ cs) : splitAt c cs = (cs, none) := by
  have hne : forall d, d ∈ cs -> (d != c) = true := by
    intro d hd
    exact bne_iff_ne.mpr fun heq => h (heq ▸ hd)
  rw [splitAt, List.dropWhile_eq_nil_iff.mpr hne]

theorem not_mem_twoDigits {c : Char} (h : c.isDigit = false) (n : Nat) :
    c ∉ ClockReading.twoDigits n := by
  intro hc
  cases h.symm.trans (ClockReading.isDigit_of_mem_twoDigits hc)

theorem ofToken_clockWord (behind : Bool) (micros : Int) :
    ClockText.ofToken (clockWord behind micros) =
      let seconds := micros.natAbs / 1000000
      let fraction := micros.natAbs % 1000000
      ⟨decide (micros < 0), ClockReading.twoDigits (seconds / 3600),
        ClockReading.twoDigits (seconds / 60 % 60), ClockReading.twoDigits (seconds % 60),
        if fraction = 0 then [] else ClockReading.fractionDigits fraction⟩ := by
  rw [ClockText.ofToken, clockWord, takeSign_signText fun c => ClockReading.isDigit_of_head?_text]
  dsimp only
  rw [ClockReading.text, splitAt_append (not_mem_twoDigits (by decide) _)]
  dsimp only [Option.getD_some]
  rw [splitAt_append (not_mem_twoDigits (by decide) _)]
  dsimp only [Option.getD_some]
  rw [ClockReading.fractionText]
  by_cases hzero : micros.natAbs % 1000000 = 0
  · rw [if_pos hzero, if_pos hzero, List.append_nil,
      splitAt_eq_none (not_mem_twoDigits (by decide) _), Option.getD_none]
  · rw [if_neg hzero, if_neg hzero, splitAt_append (not_mem_twoDigits (by decide) _),
      Option.getD_some]

theorem sizeOf_of_digits {cs : List Char} (h : forall c, c ∈ cs -> c.isDigit = true) :
    sizeOf cs = cs.length := by
  induction cs with
  | nil => rfl
  | cons c rest ih =>
      have hrest := ih fun d hd => h d (List.mem_cons_of_mem c hd)
      have hsize := utf8Size_of_isDigit (h c List.mem_cons_self)
      simp only [sizeOf, List.length_cons] at hrest ⊢
      omega

theorem takeSize_of_digits {cs : List Char} (h : forall c, c ∈ cs -> c.isDigit = true) :
    takeSize cs.length cs = cs := by
  have hwhole : IsBoundary cs.length cs := ⟨cs, List.prefix_rfl, sizeOf_of_digits h⟩
  have hsize := isBoundary_iff.mp hwhole
  have hfront := takeSize_isPrefix cs.length cs
  have hlength := sizeOf_of_digits fun c hc => h c (hfront.subset hc)
  exact hfront.eq_of_length (hlength.symm.trans hsize)

theorem fractionMicros_fractionDigits {micros : Nat} (h : micros < 1000000) :
    ¬ Traps (guardedFraction (if micros = 0 then [] else ClockReading.fractionDigits micros)) ∧
      fractionMicros (if micros = 0 then [] else ClockReading.fractionDigits micros) =
        .ok micros := by
  split
  · rename_i hzero
    rw [hzero, traps_guardedFraction]
    exact ⟨fun hcut => hcut.1 rfl, rfl⟩
  · rename_i hzero
    have hne := ClockReading.fractionDigits_ne_nil hzero h
    have hfilled : filled (ClockReading.fractionDigits micros) = (padded 6 micros).toList :=
      ClockReading.fractionDigits_append_zeros h
    have hlength := ClockReading.length_sixDigits h
    have hdigits : forall c, c ∈ (padded 6 micros).toList -> c.isDigit = true :=
      fun c => isDigit_of_mem_padded
    rw [traps_guardedFraction, fractionMicros, if_neg (by simpa using hne)]
    refine ⟨fun hcut => hcut.2 ?_, ?_⟩
    · rw [hfilled]
      exact ⟨_, List.prefix_rfl, (sizeOf_of_digits hdigits).trans hlength⟩
    · have htake := takeSize_of_digits hdigits
      rw [hlength] at htake
      have hvalue := ofDigits_padded 6 micros
      dsimp only
      rw [<- filled, hfilled, htake, parsed_eq_ok,
        readInt64?_digits (by rintro hnil; rw [hnil] at hlength; cases hlength) hdigits
          (by rw [hvalue, fits_64_iff]; omega), hvalue]

section

variable (behind : Bool) {micros : Int} (hfits : Fits 64 micros)
include hfits

theorem readInt64?_clockWord :
    let t := ClockText.ofToken (clockWord behind micros)
    let seconds := micros.natAbs / 1000000
    t.negative = decide (micros < 0) ∧
      readInt64? t.hours = some ((seconds / 3600 : Nat) : Int) ∧
      readInt64? t.minutes = some ((seconds / 60 % 60 : Nat) : Int) ∧
      readInt64? t.whole = some ((seconds % 60 : Nat) : Int) ∧
      ¬ Traps (guardedFraction t.fraction) ∧
      fractionMicros t.fraction = .ok (micros.natAbs % 1000000 : Nat) := by
  have hbounds := fits_64_iff.mp hfits
  have hread : forall n : Nat, n ≤ micros.natAbs / 1000000 ->
      readInt64? (ClockReading.twoDigits n) = some (n : Int) := by
    intro n hn
    have hvalue : ofDigits (ClockReading.twoDigits n) = n := ofDigits_padded 2 n
    have hdigits := readInt64?_digits (ClockReading.twoDigits_ne_nil n)
      (fun c => ClockReading.isDigit_of_mem_twoDigits) (by rw [hvalue, fits_64_iff]; omega)
    rwa [hvalue] at hdigits
  have hfraction := fractionMicros_fractionDigits
    (Nat.mod_lt micros.natAbs (by decide : 1000000 > 0))
  rw [ofToken_clockWord]
  dsimp only
  refine ⟨rfl, hread _ (Nat.div_le_self _ _), ?_, hread _ (Nat.mod_le _ _), hfraction⟩
  exact hread _ ((Nat.mod_le _ _).trans (Nat.div_le_self _ _))

end

theorem clock_total (n : Nat) :
    (((n / 1000000 / 3600 : Nat) * 60 + (n / 1000000 / 60 % 60 : Nat)) * 60 +
      (n / 1000000 % 60 : Nat)) * 1000000 + (n % 1000000 : Nat) = (n : Int) := by
  omega

theorem clockSum_natAbs (micros : Int) :
    clockSum (decide (micros < 0)) (micros.natAbs / 1000000 / 3600 : Nat)
      (micros.natAbs / 1000000 / 60 % 60 : Nat) (micros.natAbs / 1000000 % 60 : Nat)
      (micros.natAbs % 1000000 : Nat) = micros := by
  rw [clockSum, clock_total]
  by_cases h : micros < 0
  · simp only [h, decide_true, if_true]
    omega
  · simp only [h, decide_false, Bool.false_eq_true, if_false]
    omega

theorem mem_clockSteps {micros n : Int}
    (h : n ∈ clockSteps (decide (micros < 0)) (micros.natAbs / 1000000 / 3600 : Nat)
        (micros.natAbs / 1000000 / 60 % 60 : Nat) (micros.natAbs / 1000000 % 60 : Nat)
        (micros.natAbs % 1000000 : Nat) ++
      [0 + clockSum (decide (micros < 0)) (micros.natAbs / 1000000 / 3600 : Nat)
        (micros.natAbs / 1000000 / 60 % 60 : Nat) (micros.natAbs / 1000000 % 60 : Nat)
        (micros.natAbs % 1000000 : Nat)]) :
    n = micros ∨ 0 ≤ n ∧ n ≤ micros.natAbs := by
  simp only [clockSteps, clockSum_natAbs, List.mem_append, List.mem_cons, List.not_mem_nil,
    or_false] at h
  have htotal := clock_total micros.natAbs
  generalize micros.natAbs / 1000000 / 3600 = hours at h htotal
  generalize micros.natAbs / 1000000 / 60 % 60 = minutes at h htotal
  generalize micros.natAbs / 1000000 % 60 = whole at h htotal
  generalize micros.natAbs % 1000000 = fraction at h htotal
  omega

section

variable (behind : Bool) {micros : Int} (hfits : Fits 64 micros)
include hfits

theorem clockMicros_clockWord : clockMicros (clockWord behind micros) = .ok micros := by
  rcases readInt64?_clockWord behind hfits with ⟨hsign, hhours, hminutes, hwhole, -, hfraction⟩
  rw [clockMicros_eq]
  dsimp only
  rw [parsed_eq_ok.mpr hhours, parsed_eq_ok.mpr hminutes, parsed_eq_ok.mpr hwhole, hfraction, hsign]
  simp only [Result.ok_bind, Result.pure_eq_ok, clockSum_natAbs]

/-- Only the greatest reading overruns: without its sign it does not fit. -/
theorem clockOverruns_clockWord :
    ClockOverruns 0 (clockWord behind micros) <-> micros = -9223372036854775808 := by
  rcases readInt64?_clockWord behind hfits with
    ⟨hsign, hhours, hminutes, hwhole, hcut, hfraction⟩
  rw [traps_guardedFraction] at hcut
  have hbounds := fits_64_iff.mp hfits
  constructor
  · rintro ⟨hours, minutes, whole, hh, hm, hw, hrest⟩
    cases hhours.symm.trans hh
    cases hminutes.symm.trans hm
    cases hwhole.symm.trans hw
    rcases hrest with hrest | ⟨fraction, hf, n, hn, hover⟩
    · exact absurd hrest hcut
    · cases hfraction.symm.trans hf
      rw [hsign] at hn
      rw [fits_64_iff] at hover
      rcases mem_clockSteps hn with rfl | ⟨hnonneg, hle⟩
      · exact absurd hbounds hover
      · omega
  · intro heq
    refine ⟨_, _, _, hhours, hminutes, hwhole, .inr ⟨_, hfraction, micros.natAbs, ?_, ?_⟩⟩
    · simp only [clockSteps, clock_total, List.mem_append, List.mem_cons, true_or, or_true]
    · rw [fits_64_iff]
      omega

theorem guardedAddClock_clockWord (hne : micros ≠ -9223372036854775808) :
    guardedAddClock 0 (clockWord behind micros) = ofResult (.ok micros) := by
  have htraps : ¬ Traps (guardedAddClock 0 (clockWord behind micros)) := by
    rw [traps_guardedAddClock, clockOverruns_clockWord behind hfits]
    exact hne
  rw [(refines_guardedAddClock _ _).eq_of_not_traps htraps, clockMicros_clockWord behind hfits,
    Result.ok_bind, Int.zero_add]
  rfl

end

/-!
## Whole texts
-/

theorem not_contains_amount (behind : Bool) (n : Int) :
    (signText (n < 0) behind ++ (toString n.natAbs).toList).contains ':' = false := by
  rw [List.contains_eq_mem, decide_eq_false_iff_not, List.mem_append]
  rintro (h | h)
  · rcases mem_signText h with h | h <;> cases h
  · cases isDigit_of_mem_toString h

theorem ofUnit?_unit (p : Period) (n : Int) :
    Period.ofUnit? (if n = 1 then p.unit else p.unit ++ "s").toList = some p := by
  cases p <;> split <;> rfl

theorem tmod_between (n : Int) :
    -12 < n.tmod 12 ∧ n.tmod 12 < 12 ∧ (0 ≤ n -> 0 ≤ n.tmod 12) ∧ (n ≤ 0 -> n.tmod 12 ≤ 0) := by
  refine ⟨Int.lt_tmod_of_pos n (by decide), Int.tmod_lt_of_pos n (by decide), ?_, ?_⟩
  · intro hn
    exact Int.tmod_nonneg 12 hn
  · intro hn
    have hneg := Int.tmod_nonneg 12 (Int.neg_nonneg_of_nonpos hn)
    rw [Int.neg_tmod] at hneg
    omega

variable (text : List Char)

theorem guardedAddUp_amountWords {p : Period} (behind : Bool) {n : Int} {sum : Sum}
    (hn : Fits 32 n) (hsteps : forall k, k ∈ p.steps n sum -> Fits 32 k)
    (rest : List (List Char)) :
    guardedAddUp text sum (amountWords p behind n ++ rest) =
      guardedAddUp text (p.add n sum) rest := by
  rw [amountWords]
  split
  · rename_i hzero
    have hsame : p.add n sum = sum := by
      rw [hzero]
      cases p <;> simp [Period.add]
    rw [hsame, List.nil_append]
  · have hadd : p.guardedAdd n sum = ofResult (.ok (p.add n sum)) := by
      refine (p.refines_guardedAdd n sum).eq_of_not_traps ?_
      rw [Period.traps_guardedAdd]
      rintro ⟨k, hk, hover⟩
      exact hover (hsteps k hk)
    rw [List.cons_append, List.cons_append, List.nil_append, guardedAddUp,
      if_neg (by rw [not_contains_amount]; exact Bool.false_ne_true),
      parsed_eq_ok.mpr (readInt32?_amount hn behind), ok_bind]
    dsimp only
    rw [ofUnit?_unit]
    dsimp only
    rw [hadd, ok_bind]

theorem guardedAddUp_amounts (i : Interval) (rest : List (List Char)) :
    guardedAddUp text {} (amounts i ++ rest) =
      guardedAddUp text ⟨i.months.toInt, i.days.toInt, 0⟩ rest := by
  have hmonths : Fits 32 i.months.toInt := fits_32_iff.mpr ⟨i.months.le_toInt, i.months.toInt_lt⟩
  have hdays : Fits 32 i.days.toInt := fits_32_iff.mpr ⟨i.days.le_toInt, i.days.toInt_lt⟩
  have hsplit := Int.mul_tdiv_add_tmod i.months.toInt 12
  have hbetween := tmod_between i.months.toInt
  rw [fits_32_iff] at hmonths
  rw [amounts, List.append_assoc, List.append_assoc,
    guardedAddUp_amountWords text false (fits_32_iff.mpr (by omega)),
    guardedAddUp_amountWords text _ (fits_32_iff.mpr (by omega)),
    guardedAddUp_amountWords text _ hdays]
  · simp only [Period.add, Int.zero_add]
    congr 2
    omega
  all_goals
    simp only [Period.steps, Period.add, Int.zero_add, List.mem_cons, List.not_mem_nil, or_false,
      forall_eq_or_imp, forall_eq, fits_32_iff]
  · exact fits_32_iff.mp hdays
  · omega
  · omega

theorem guardedInterval_clock (i : Interval) (h : amounts i = [] ∨ i.microseconds ≠ 0) :
    guardedInterval (styled i) = do
      let micros <- guardedAddClock 0 (clockWord (isClockBehind i) i.microseconds.toInt)
      return ⟨i.months, i.days, .ofInt micros⟩ := by
  have hclock : (clockWord (isClockBehind i) i.microseconds.toInt).contains ':' = true := by
    simp [clockWord, ClockReading.text]
  rw [guardedInterval, words_styled, styleWords, if_pos h, guardedAddUp_amounts, guardedAddUp,
    if_pos hclock, bind_assoc]
  simp only [guardedAddUp, pure_bind, Int32.ofInt_toInt]

theorem fits_microseconds (i : Interval) : Fits 64 i.microseconds.toInt :=
  fits_64_iff.mpr ⟨i.microseconds.le_toInt, i.microseconds.toInt_lt⟩

theorem guardedInterval_styled {i : Interval}
    (h : i.microseconds.toInt ≠ -9223372036854775808) :
    guardedInterval (styled i) = ofResult (.ok i) := by
  by_cases hclock : amounts i = [] ∨ i.microseconds ≠ 0
  · rw [guardedInterval_clock i hclock, guardedAddClock_clockWord _ (fits_microseconds i) h,
      ok_bind, pure_eq, Int64.ofInt_toInt]
  · have hzero : i.microseconds = 0 := by
      by_contra hne
      exact hclock (.inr hne)
    have hadded := guardedAddUp_amounts (styled i) i []
    rw [List.append_nil] at hadded
    rw [guardedInterval, words_styled, styleWords, if_neg hclock, hadded, guardedAddUp]
    simp only [pure_eq, ok_bind, Int32.ofInt_toInt]
    have hmicros : Int64.ofInt 0 = i.microseconds := hzero.symm
    rw [hmicros]

/-- The server's text of an interval stops the reader only if the microseconds have no negative. -/
theorem traps_styled (i : Interval) :
    Traps (guardedInterval (styled i)) <-> i.microseconds = Int64.minValue := by
  rw [<- Int64.toInt_inj, Int64.toInt_minValue]
  constructor
  · intro htraps
    by_contra hne
    rw [guardedInterval_styled hne] at htraps
    exact not_traps_ofResult _ htraps
  · intro heq
    have hne : i.microseconds ≠ 0 := by
      intro hzero
      rw [hzero] at heq
      cases heq
    rw [guardedInterval_clock i (.inr hne), traps_bind, traps_guardedAddClock,
      clockOverruns_clockWord _ (fits_microseconds i)]
    exact .inl heq

/-- The server's text of an interval is read as that interval, and nothing on the way leaves its
width. -/
theorem styled_intervals_read (i : Interval) (h : Int64.minValue < i.microseconds) :
    guardedInterval (styled i) = ofResult (.ok i) ∧ readInterval (styled i) = .ok i := by
  have hne : i.microseconds.toInt ≠ -9223372036854775808 := by
    have hlt := Int64.lt_iff_toInt_lt.mp h
    rw [Int64.toInt_minValue] at hlt
    omega
  have hguarded := guardedInterval_styled hne
  exact ⟨hguarded, (refines_guardedInterval (styled i) _ hguarded).symm⟩

def farthest : Interval := ⟨Int32.minValue, Int32.maxValue, Int64.minValue + 1⟩

theorem farthest_read :
    Int64.minValue < farthest.microseconds ∧
      styled farthest =
        "-178956970 years -8 mons +2147483647 days -2562047788:00:54.775807".toList ∧
      guardedInterval (styled farthest) = ofResult (.ok farthest) ∧
      readInterval (styled farthest) = .ok farthest :=
  ⟨by decide, by decide, styled_intervals_read farthest (by decide)⟩

/-!
## Texts that stop the reader
-/

/-- A text stops the reader if and only if one of its parts overruns the sum of those before it.
Any other text is read in full: there is an interval or a fault of conversion.  Of the server's
own texts, one stops the reader only if the microseconds have no negative. -/
theorem interval_reading_stops_iff (text : List Char) :
    (Traps (guardedInterval text) <->
      exists before token rest sum, Text.words text = before ++ token :: rest ∧
        addUp text {} before = .ok sum ∧ Overruns sum token rest) ∧
    (¬ Traps (guardedInterval text) ->
      guardedInterval text = ofResult (readInterval text) ∧ IsConversion (readInterval text)) ∧
    forall i, text = styled i ->
      (Traps (guardedInterval text) <-> i.microseconds = Int64.minValue) := by
  refine ⟨traps_guardedInterval text, ?_, ?_⟩
  · intro htraps
    exact ⟨(refines_guardedInterval text).eq_of_not_traps htraps, isConversion_readInterval text⟩
  · rintro i rfl
    exact traps_styled i

theorem farthest_not_stopped :
    ¬ Traps (guardedInterval (styled farthest)) ∧
      guardedInterval (styled farthest) = ofResult (readInterval (styled farthest)) := by
  have hstops := interval_reading_stops_iff (styled farthest)
  have htraps : ¬ Traps (guardedInterval (styled farthest)) := by
    rw [hstops.2.2 farthest rfl]
    decide
  exact ⟨htraps, (hstops.2.1 htraps).1⟩

/-- A year too many in months, days that fit one by one, the server's text of the fewest
microseconds, and a fraction whose sixth character has two bytes. -/
theorem readings_stopped :
    Traps (guardedInterval "178956971 years".toList) ∧
      Traps (guardedInterval "2147483647 days 1 day".toList) ∧
      Traps (guardedInterval (styled ⟨0, 0, Int64.minValue⟩)) ∧
      Traps (guardedInterval "00:00:00.00000é".toList) := by
  refine ⟨?_, ?_, (traps_styled _).mpr rfl, ?_⟩
  all_goals
    rw [traps_guardedInterval]
  · refine ⟨[], "178956971".toList, ["years".toList], {}, by decide, rfl, ?_⟩
    rw [Overruns, if_neg (by decide)]
    refine ⟨178956971, _, _, .year, by decide, rfl, rfl, 178956971 * 12, ?_, by decide⟩
    exact List.mem_cons_self
  · have hfirst : addUp "2147483647 days 1 day".toList {} ["2147483647".toList, "days".toList] =
        .ok ⟨0, 2147483647, 0⟩ := rfl
    refine ⟨["2147483647".toList, "days".toList], "1".toList, ["day".toList], _, by decide,
      hfirst, ?_⟩
    rw [Overruns, if_neg (by decide)]
    refine ⟨1, _, _, .day, by decide, rfl, rfl, 2147483647 + 1, ?_, by decide⟩
    exact List.mem_cons_self
  · refine ⟨[], "00:00:00.00000é".toList, [], {}, by decide, rfl, ?_⟩
    rw [Overruns, if_pos (by decide)]
    exact ⟨0, 0, 0, by decide, by decide, by decide, .inl (by decide)⟩

end IntervalText
end Wire
end TypedQuery
