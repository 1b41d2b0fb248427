import TypedQuery.Calendar.Reader
import TypedQuery.Proofs.Wire.ClockReading

/-!
# What the readers of dates and times take in

Each reader takes its part from the left of a text in which every number has all its digits, and
leaves what stands behind it.
-/

namespace TypedQuery
namespace Calendar

open Number
open Wire Wire.ClockReading

namespace Reader

/-!
## Digits
-/

theorem trimStart_eq {cs : List Char} (h : forall c, cs.head? = some c -> Text.isBlank c = false) :
    Text.trimStart cs = cs := by
  cases cs with
  | nil => rfl
  | cons c rest => rw [Text.trimStart, List.dropWhile_cons_of_neg (by rw [h c rfl]; decide)]

theorem trimStart_space (cs : List Char) : Text.trimStart (' ' :: cs) = Text.trimStart cs :=
  List.dropWhile_cons_of_pos (by decide)

theorem trimStart_digits {digits : List Char} (hne : digits ≠ [])
    (hdigits : forall c, c ∈ digits -> c.isDigit = true) (rest : List Char) :
    Text.trimStart (digits ++ rest) = digits ++ rest := by
  refine trimStart_eq fun c hc => not_isBlank_of_isDigit (hdigits c ?_)
  rw [List.head?_append_of_ne_nil _ hne] at hc
  exact List.mem_of_mem_head? hc

def NoDigit (cs : List Char) : Prop := forall c, cs.head? = some c -> c.isDigit = false

theorem noDigit_nil : NoDigit [] := by
  intro c h
  cases h

theorem noDigit_cons {c : Char} (h : c.isDigit = false) (rest : List Char) :
    NoDigit (c :: rest) := by
  intro d hd
  cases hd
  exact h

theorem takeDigits_digits {digits : List Char} (hdigits : forall c, c ∈ digits -> c.isDigit = true)
    {rest : List Char} (hrest : NoDigit rest) : takeDigits (digits ++ rest) = (digits, rest) := by
  induction digits with
  | nil =>
      cases rest with
      | nil => rfl
      | cons c rest =>
          rw [List.nil_append, takeDigits, if_neg (by rw [hrest c rfl]; decide)]
  | cons c digits ih =>
      have hc := hdigits c List.mem_cons_self
      have hmore := ih fun d hd => hdigits d (List.mem_cons_of_mem c hd)
      rw [List.cons_append, takeDigits, if_pos hc, hmore]

theorem number_digits {digits : List Char} (hne : digits ≠ [])
    (hdigits : forall c, c ∈ digits -> c.isDigit = true) (rest : List Char) :
    number digits.length (digits ++ rest) = some (ofDigits digits, rest) := by
  have htaken := takeDigits_digits hdigits noDigit_nil
  rw [List.append_nil] at htaken
  rw [number, List.take_left, htaken]
  dsimp only
  rw [if_neg (by simpa using hne), List.drop_left]

/-!
## Numbers of two digits
-/

theorem length_twoDigits {n : Nat} (h : n < 100) : (twoDigits n).length = 2 := by
  have hpower : tenPow 2 = 100 := by decide
  exact length_padded (by decide) (hpower.symm ▸ h)

theorem number_twoDigits {n : Nat} (h : n < 100) (rest : List Char) :
    number 2 (twoDigits n ++ rest) = some (n, rest) := by
  have hread := number_digits (twoDigits_ne_nil n) (fun c => isDigit_of_mem_twoDigits) rest
  have hvalue : ofDigits (twoDigits n) = n := ofDigits_padded 2 n
  rw [length_twoDigits h, hvalue] at hread
  exact hread

theorem field_twoDigits {n : Nat} (h : n < 100) (low high : Nat) (rest : List Char) :
    field low high (twoDigits n ++ rest) =
      if low ≤ n ∧ n ≤ high then some (n, rest) else none := by
  rw [field, trimStart_digits (twoDigits_ne_nil n) fun c => isDigit_of_mem_twoDigits,
    number_twoDigits h]
  simp only [Option.bind_eq_bind, Option.bind_some, Bool.and_eq_true, decide_eq_true_eq]

theorem field_within {n low high : Nat} (h : n < 100) (hlow : low ≤ n) (hhigh : n ≤ high)
    (rest : List Char) : field low high (twoDigits n ++ rest) = some (n, rest) := by
  rw [field_twoDigits h, if_pos ⟨hlow, hhigh⟩]

theorem literal_cons (c : Char) (rest : List Char) : literal c (c :: rest) = some ((), rest) :=
  if_pos (beq_self_eq_true c)

theorem literal_eq_none {c : Char} {cs : List Char} (h : cs.head? ≠ some c) :
    literal c cs = none := by
  cases cs with
  | nil => rfl
  | cons d rest =>
      refine if_neg fun heq => h ?_
      rw [beq_iff_eq.mp heq]
      rfl

/-!
## Dates
-/

def yearDigits (year : Nat) : List Char := (padded 4 year).toList

def dateText (year month day : Nat) : List Char :=
  yearDigits year ++ '-' :: (twoDigits month ++ '-' :: twoDigits day)

theorem isDigit_of_mem_yearDigits {year : Nat} {c : Char} (h : c ∈ yearDigits year) :
    c.isDigit = true :=
  isDigit_of_mem_padded h

theorem yearDigits_ne_nil (year : Nat) : yearDigits year ≠ [] := by
  rw [yearDigits, toList_padded]
  exact List.append_ne_nil_of_right_ne_nil _ (toString_ne_nil year)

theorem length_yearDigits {year : Nat} (h : year < 10000) : (yearDigits year).length = 4 := by
  have hpower : tenPow 4 = 10000 := by decide
  exact length_padded (by decide) (hpower.symm ▸ h)

theorem year_digits {digits : List Char} (hne : digits ≠ [])
    (hdigits : forall c, c ∈ digits -> c.isDigit = true) (rest : List Char) :
    year (digits ++ rest) =
      (number 4 (digits ++ rest)).map fun (n, rest) => ((n : Int), rest) := by
  rw [year, trimStart_digits hne hdigits]
  cases digits with
  | nil => exact absurd rfl hne
  | cons c digits =>
      have hc := hdigits c List.mem_cons_self
      split
      · rename_i heq
        cases heq
        cases hc
      · rename_i heq
        cases heq
        cases hc
      · rfl

theorem year_yearDigits {n : Nat} (h : n < 10000) (rest : List Char) :
    year (yearDigits n ++ rest) = some ((n : Int), rest) := by
  have hread := number_digits (yearDigits_ne_nil n) (fun c => isDigit_of_mem_yearDigits) rest
  have hvalue : ofDigits (yearDigits n) = n := ofDigits_padded 4 n
  rw [length_yearDigits h, hvalue] at hread
  rw [year_digits (yearDigits_ne_nil n) fun c => isDigit_of_mem_yearDigits, hread]
  rfl

theorem date_dateText {y m d : Nat} (hy : y < 10000) (hm : 1 ≤ m ∧ m ≤ 12) (hd : 1 ≤ d ∧ d ≤ 31)
    (rest : List Char) :
    date (dateText y m d ++ rest) = (Date.ofYmd? y m d).map fun date => (date, rest) := by
  rw [date, dateText]
  simp only [List.append_assoc, List.cons_append]
  rw [year_yearDigits hy]
  simp only [Option.bind_eq_bind, Option.bind_some, literal_cons]
  rw [field_within (by omega) hm.1 hm.2]
  simp only [Option.bind_some, literal_cons]
  rw [field_within (by omega) hd.1 hd.2]
  simp only [Option.bind_some]
  cases Date.ofYmd? y m d <;> rfl

theorem date_longYear {y : Nat} (hy : 10000 ≤ y) (rest : List Char) :
    date (yearDigits y ++ rest) = none := by
  have hpower : tenPow 4 = 10000 := by decide
  have hlength : 4 < (yearDigits y).length := by
    by_contra hshort
    have hlt : ofDigits (yearDigits y) < tenPow (yearDigits y).length :=
      ofDigits_lt fun c => isDigit_of_mem_yearDigits
    have hle : tenPow (yearDigits y).length ≤ tenPow 4 :=
      Nat.pow_le_pow_right (by decide) (Nat.le_of_not_lt hshort)
    have hvalue : ofDigits (yearDigits y) = y := ofDigits_padded 4 y
    rw [hvalue] at hlt
    omega
  have hfour : ((yearDigits y).take 4).length = 4 := List.length_take_of_le hlength.le
  have hfront : forall c, c ∈ (yearDigits y).take 4 -> c.isDigit = true := by
    intro c hc
    exact isDigit_of_mem_yearDigits (List.mem_of_mem_take hc)
  have hread := number_digits (List.ne_nil_of_length_eq_add_one hfour) hfront
    ((yearDigits y).drop 4 ++ rest)
  have hhyphen : literal '-' ((yearDigits y).drop 4 ++ rest) = none := by
    refine literal_eq_none fun hhead => ?_
    have hmore : (yearDigits y).drop 4 ≠ [] := by
      rw [ne_eq, List.drop_eq_nil_iff]
      omega
    rw [List.head?_append_of_ne_nil _ hmore] at hhead
    cases isDigit_of_mem_yearDigits (List.mem_of_mem_drop (List.mem_of_mem_head? hhead))
  rw [hfour, <- List.append_assoc, List.take_append_drop] at hread
  rw [date, year_digits (yearDigits_ne_nil y) fun c => isDigit_of_mem_yearDigits, hread]
  simp only [Option.map_some, Option.bind_eq_bind, Option.bind_some, hhyphen, Option.bind_none]

/-!
## Times of day
-/

theorem tenPow_add (a b : Nat) : tenPow (a + b) = tenPow a * tenPow b := Nat.pow_add 10 a b

/-- What stands behind a clock reading does not go on with it. -/
structure EndsReading (rest : List Char) : Prop where
  noDigit : NoDigit rest
  noPoint : rest.head? ≠ some '.'

theorem endsReading_nil : EndsReading [] := by
  refine ⟨noDigit_nil, ?_⟩
  intro h
  cases h

theorem endsReading_cons {c : Char} (hdigit : c.isDigit = false) (hpoint : c ≠ '.')
    (rest : List Char) : EndsReading (c :: rest) := by
  refine ⟨noDigit_cons hdigit rest, ?_⟩
  intro h
  cases h
  exact hpoint rfl

theorem fraction_fractionText {micros : Nat} (h : micros < 1000000) {rest : List Char}
    (hrest : EndsReading rest) :
    fraction (fractionText micros ++ rest) = some (micros * 1000, rest) := by
  rw [fractionText]
  split
  · rename_i hzero
    rw [hzero, List.nil_append, fraction]
    rintro rest' rfl
    exact hrest.noPoint rfl
  · rename_i hzero
    have hlength := length_fractionDigits_le h
    have hkept : (fractionDigits micros).take 9 = fractionDigits micros :=
      List.take_of_length_le (by omega)
    have hnine : 9 - (fractionDigits micros).length = 6 - (fractionDigits micros).length + 3 := by
      omega
    have hthousand : tenPow 3 = 1000 := by decide
    rw [List.cons_append, fraction,
      takeDigits_digits (fun c => isDigit_of_mem_fractionDigits) hrest.noDigit]
    dsimp only
    rw [if_neg (by simpa using fractionDigits_ne_nil hzero h), hkept, hnine, tenPow_add,
      <- Nat.mul_assoc, ofDigits_fractionDigits h, hthousand]
    rfl

theorem ofParts?_eq {micros : Nat} (h : micros < 86400000000) :
    TimeOfDay.ofParts? (micros / 1000000) (micros % 1000000 * 1000) =
      some (TimeOfDay.ofMicroseconds micros) := by
  have hday : ((micros : Int).fmod 86400000000).toNat = micros := by
    rw [Int.fmod_eq_emod_of_nonneg _ (by decide)]
    omega
  rw [TimeOfDay.ofMicroseconds, hday, TimeOfDay.ofParts?, dif_pos (by omega)]
  rfl

theorem ofMicroseconds_parts {micros : Nat} (h : micros < 86400000000) :
    (TimeOfDay.ofMicroseconds micros).seconds = micros / 1000000 ∧
      (TimeOfDay.ofMicroseconds micros).nanos = micros % 1000000 * 1000 := by
  have hparts := ofParts?_eq h
  rw [TimeOfDay.ofParts?, dif_pos (by omega), Option.some.injEq] at hparts
  rw [<- hparts]
  exact ⟨rfl, rfl⟩

theorem time_text {micros : Nat} (h : micros < 86400000000) {rest : List Char}
    (hrest : EndsReading rest) :
    time (ClockReading.text micros ++ rest) =
      some (TimeOfDay.ofMicroseconds micros, rest) := by
  have hfraction := fraction_fractionText (Nat.mod_lt micros (by decide : 1000000 > 0)) hrest
  have hsum : micros / 1000000 / 3600 * 3600 + micros / 1000000 / 60 % 60 * 60 +
      micros / 1000000 % 60 = micros / 1000000 := by omega
  have hhms : TimeOfDay.ofHms? (micros / 1000000 / 3600) (micros / 1000000 / 60 % 60)
      (micros / 1000000 % 60) (micros % 1000000 * 1000) =
        some (TimeOfDay.ofMicroseconds micros) := by
    rw [TimeOfDay.ofHms?, if_pos, hsum, ofParts?_eq h]
    simp only [Bool.and_eq_true, Bool.or_eq_true, decide_eq_true_eq, beq_iff_eq]
    omega
  have hsixty : micros / 1000000 % 60 ≠ 60 := by omega
  rw [time, ClockReading.text]
  simp only [List.append_assoc, List.cons_append]
  rw [field_within (by omega) (Nat.zero_le _) (by omega)]
  simp only [Option.bind_eq_bind, Option.bind_some, literal_cons]
  rw [field_within (by omega) (Nat.zero_le _) (by omega)]
  simp only [Option.bind_some, literal_cons]
  rw [field_within (by omega) (Nat.zero_le _) (by omega)]
  simp only [Option.bind_some, hfraction, hsixty, if_false, hhms]
  rfl

theorem time_endOfDay (rest : List Char) :
    time (ClockReading.text 86400000000 ++ rest) = none := by
  rw [time, ClockReading.text]
  simp only [List.append_assoc, List.cons_append]
  rw [field_twoDigits (by decide), if_neg (by decide)]
  rfl

/-!
## Zone offsets
-/

def minuteText (seconds : Nat) : List Char :=
  if seconds % 60 ≠ 0 then
    ':' :: (twoDigits (seconds / 60 % 60) ++ ':' :: twoDigits (seconds % 60))
  else if seconds / 60 % 60 ≠ 0 then ':' :: twoDigits (seconds / 60 % 60)
  else []

def zoneText (offset : Int) : List Char :=
  (if offset < 0 then '-' else '+') ::
    (twoDigits (offset.natAbs / 3600) ++ minuteText offset.natAbs)

theorem exists_twoDigits {n : Nat} (h : n < 100) :
    exists a b, twoDigits n = [a, b] ∧ a.isDigit = true ∧ b.isDigit = true ∧
      ofDigits [a, b] = n ∧ a.toNat = 48 + n / 10 := by
  rcases List.length_eq_two.mp (length_twoDigits h) with ⟨a, b, hdigits⟩
  have ha : a.isDigit = true :=
    isDigit_of_mem_twoDigits (n := n) (by rw [hdigits]; exact List.mem_cons_self)
  have hb : b.isDigit = true :=
    isDigit_of_mem_twoDigits (n := n) (by rw [hdigits]; simp)
  have hvalue : ofDigits (twoDigits n) = n := ofDigits_padded 2 n
  rw [hdigits] at hvalue
  have hsum : ofDigits [a, b] = (a.toNat - 48) * tenPow 1 + ((b.toNat - 48) * tenPow 0 + 0) := by
    rw [ofDigits_cons, ofDigits_cons]
    rfl
  have hten : tenPow 1 = 10 := by decide
  have hone : tenPow 0 = 1 := by decide
  rw [hten, hone] at hsum
  have ha' := isDigit_iff.mp ha
  have hb' := isDigit_iff.mp hb
  exact ⟨a, b, hdigits, ha, hb, hvalue, by omega⟩

theorem offsetMinutes_twoDigits {n : Nat} (h : n < 60) (rest : List Char) :
    offsetMinutes (twoDigits n ++ rest) = some (n, rest) := by
  rcases exists_twoDigits (show n < 100 by omega) with ⟨a, b, hdigits, ha, hb, hvalue, htens⟩
  have hsix : a.toNat < '6'.toNat := by
    show a.toNat < 54
    omega
  rw [hdigits, List.cons_append, List.cons_append, List.nil_append, offsetMinutes]
  simp only [ha, hb, hsix, Bool.and_true, decide_true, if_true, hvalue]

theorem dropWhile_twoDigits (n : Nat) (rest : List Char) :
    (':' :: (twoDigits n ++ rest)).dropWhile isSeparator = twoDigits n ++ rest := by
  rw [List.dropWhile_cons_of_pos (by decide)]
  cases hdigits : twoDigits n with
  | nil => exact absurd hdigits (twoDigits_ne_nil n)
  | cons c more =>
      have hc : c.isDigit = true :=
        isDigit_of_mem_twoDigits (n := n) (by rw [hdigits]; exact List.mem_cons_self)
      have hcolon : c ≠ ':' := by
        rintro rfl
        cases hc
      rw [List.cons_append, List.dropWhile_cons_of_neg]
      simp only [isSeparator, not_isBlank_of_isDigit hc, Bool.or_false, beq_iff_eq]
      exact hcolon

def eraText (year : Int) : List Char := if 0 < year then [] else " BC".toList

theorem eraText_cases (year : Int) : eraText year = [] ∨ eraText year = " BC".toList := by
  rw [eraText]
  split
  · exact .inl rfl
  · exact .inr rfl

theorem offsetMinutes_minuteText (seconds : Nat) {rest : List Char}
    (hrest : rest = [] ∨ rest = " BC".toList) :
    if seconds % 60 = 0 ∧ rest = [] then
      offsetMinutes ((minuteText seconds ++ rest).dropWhile isSeparator) =
        some (seconds / 60 % 60, [])
    else forall n,
      offsetMinutes ((minuteText seconds ++ rest).dropWhile isSeparator) ≠ some (n, []) := by
  rw [minuteText]
  by_cases hwhole : seconds % 60 = 0
  · rw [if_neg (not_not_intro hwhole)]
    by_cases hminutes : seconds / 60 % 60 = 0
    · rw [if_neg (not_not_intro hminutes), List.nil_append]
      rcases hrest with rfl | rfl
      · rw [if_pos ⟨hwhole, rfl⟩, hminutes]
        rfl
      · rw [if_neg fun h => List.cons_ne_nil _ _ h.2]
        intro n h
        cases h
    · rw [if_pos hminutes, List.cons_append, dropWhile_twoDigits,
        offsetMinutes_twoDigits (by omega)]
      by_cases hnil : rest = []
      · rw [if_pos ⟨hwhole, hnil⟩, hnil]
      · rw [if_neg fun h => hnil h.2]
        intro n h
        cases h
        exact hnil rfl
  · rw [if_pos hwhole, if_neg fun h => hwhole h.1, List.cons_append, List.append_assoc,
      dropWhile_twoDigits, offsetMinutes_twoDigits (by omega)]
    intro n h
    cases h

theorem zoneOffset_cons (negative : Bool) {a b : Char} (ha : a.isDigit = true)
    (hb : b.isDigit = true) (rest : List Char) :
    zoneOffset ((if negative then '-' else '+') :: a :: b :: rest) =
      (offsetMinutes (rest.dropWhile isSeparator)).map fun (minutes, rest) =>
        let seconds : Int := ofDigits [a, b] * 3600 + minutes * 60
        (if negative then -seconds else seconds, rest) := by
  cases negative with
  | true =>
      have htrim : Text.trimStart ('-' :: a :: b :: rest) = '-' :: a :: b :: rest :=
        trimStart_eq (by rintro c ⟨⟩; decide)
      simp only [zoneOffset, if_true, htrim]
      show (if !(a.isDigit && b.isDigit) then none else _) = _
      rw [ha, hb]
      cases offsetMinutes (rest.dropWhile isSeparator) <;> rfl
  | false =>
      have htrim : Text.trimStart ('+' :: a :: b :: rest) = '+' :: a :: b :: rest :=
        trimStart_eq (by rintro c ⟨⟩; decide)
      simp only [zoneOffset, Bool.false_eq_true, if_false, htrim]
      show (if !(a.isDigit && b.isDigit) then none else _) = _
      rw [ha, hb]
      cases offsetMinutes (rest.dropWhile isSeparator) <;> rfl

theorem zoneOffset_zoneText {offset : Int} (h : offset.natAbs < 86400) (year : Int) :
    if offset % 60 = 0 ∧ eraText year = [] then
      zoneOffset (zoneText offset ++ eraText year) = some (offset, [])
    else forall n, zoneOffset (zoneText offset ++ eraText year) ≠ some (n, []) := by
  rcases exists_twoDigits (show offset.natAbs / 3600 < 100 by omega) with
    ⟨a, b, hdigits, ha, hb, hvalue, -⟩
  have hsign : (if offset < 0 then '-' else '+') = if decide (offset < 0) then '-' else '+' := by
    simp only [decide_eq_true_eq]
  have htext : zoneText offset ++ eraText year = (if decide (offset < 0) then '-' else '+') ::
      a :: b :: (minuteText offset.natAbs ++ eraText year) := by
    rw [zoneText, hdigits, hsign]
    rfl
  have hminutes := offsetMinutes_minuteText offset.natAbs (eraText_cases year)
  have hwhole : offset.natAbs % 60 = 0 <-> offset % 60 = 0 := by omega
  rw [htext, zoneOffset_cons _ ha hb, hvalue]
  simp only [hwhole] at hminutes
  split at hminutes
  · rename_i hends
    rw [if_pos hends, hminutes]
    have hseconds : ((offset.natAbs / 3600 : Nat) : Int) * 3600 +
        ((offset.natAbs / 60 % 60 : Nat) : Int) * 60 = offset.natAbs := by omega
    have hoffset : (if offset < 0 then -(offset.natAbs : Int) else offset.natAbs) = offset := by
      split <;> omega
    simp only [Option.map_some, hseconds, decide_eq_true_eq, hoffset]
  · rename_i hends
    rw [if_neg hends]
    intro n hn
    rcases Option.map_eq_some_iff.mp hn with ⟨⟨minutes, rest⟩, hsome, heq⟩
    cases heq
    exact hminutes minutes hsome

/-!
## Whole texts
-/

theorem whole_eq_none_of_left {α : Type} {reader : Reader α} {cs : List Char}
    (h : forall value, reader cs ≠ some (value, [])) : whole reader (String.ofList cs) = none := by
  rw [whole, String.toList_ofList]
  split
  · rename_i value heq
    exact absurd heq (h value)
  · rfl

theorem whole_eq_none {α : Type} {reader : Reader α} {cs : List Char} (h : reader cs = none) :
    whole reader (String.ofList cs) = none := by
  refine whole_eq_none_of_left fun value hvalue => ?_
  cases h.symm.trans hvalue

theorem whole_eq {α β : Type} {reader : Reader β} {cs rest : List Char} {o : Option α} {f : α -> β}
    (h : reader cs = o.map fun a => (f a, rest)) :
    whole reader (String.ofList cs) = if rest = [] then o.map f else none := by
  rw [whole, String.toList_ofList, h]
  cases o with
  | none => cases rest <;> rfl
  | some a => cases rest <;> rfl

/-- The number that is written for a year; the years before year 1 count back from it. -/
def yearNumber (year : Int) : Nat := (if 0 < year then year else 1 - year).toNat

/-- A year after the first and of at most four digits. -/
def IsPlainYear (year : Int) : Prop := 1 ≤ year ∧ year ≤ 9999

instance (year : Int) : Decidable (IsPlainYear year) := inferInstanceAs (Decidable (_ ∧ _))

theorem timestamp_text {y m d micros : Nat} (hy : y < 10000) (hm : 1 ≤ m ∧ m ≤ 12)
    (hd : 1 ≤ d ∧ d ≤ 31) (hmicros : micros < 86400000000) {rest : List Char}
    (hrest : EndsReading rest) :
    timestamp (dateText y m d ++ ' ' :: (ClockReading.text micros ++ rest)) =
      (Date.ofYmd? y m d).map fun date => (⟨date, TimeOfDay.ofMicroseconds micros⟩, rest) := by
  have htrim : Text.trimStart (' ' :: (ClockReading.text micros ++ rest)) =
      ClockReading.text micros ++ rest := by
    refine (trimStart_space _).trans (trimStart_eq fun c hc => not_isBlank_of_isDigit ?_)
    rw [List.head?_append_of_ne_nil _ (text_ne_nil micros)] at hc
    exact isDigit_of_head?_text hc
  rw [timestamp, date_dateText hy hm hd]
  cases Date.ofYmd? y m d with
  | none => rfl
  | some date =>
      simp only [Option.map_some, Option.bind_eq_bind, Option.bind_some, htrim,
        time_text hmicros hrest]
      rfl

theorem timestamp_longYear {y : Nat} (hy : 10000 ≤ y) (m d : Nat) (rest : List Char) :
    timestamp (dateText y m d ++ rest) = none := by
  rw [timestamp, dateText, List.append_assoc, date_longYear hy]
  rfl

/-- A year that is not plain has too many digits, or an era stands at the end of the text. -/
theorem isPlainYear_iff {year : Int} :
    IsPlainYear year <-> yearNumber year < 10000 ∧ eraText year = [] := by
  rw [IsPlainYear, yearNumber, eraText]
  split
  · rw [and_iff_left rfl]
    omega
  · refine iff_of_false (by omega) ?_
    rintro ⟨-, h⟩
    cases h

theorem cast_yearNumber {year : Int} (h : eraText year = []) : (yearNumber year : Int) = year := by
  rw [eraText] at h
  split at h
  · rename_i hpos
    rw [yearNumber, if_pos hpos]
    omega
  · cases h

theorem endsReading_eraText (year : Int) : EndsReading (eraText year) := by
  rw [eraText]
  split
  · exact endsReading_nil
  · exact endsReading_cons (by decide) (by decide) _

theorem endsReading_zoneText (offset : Int) (rest : List Char) :
    EndsReading (zoneText offset ++ rest) := by
  rw [zoneText, List.cons_append]
  split <;> exact endsReading_cons (by decide) (by decide) _

end Reader

open Reader

theorem TimeOfDay.ofText?_text {micros : Nat} (h : micros ≤ 86400000000) :
    TimeOfDay.ofText? (String.ofList (ClockReading.text micros)) =
      if micros < 86400000000 then some (TimeOfDay.ofMicroseconds micros) else none := by
  rw [<- List.append_nil (ClockReading.text micros)]
  split
  · rename_i hlt
    exact whole_eq (o := some ()) (f := fun _ => TimeOfDay.ofMicroseconds micros)
      (time_text hlt endsReading_nil)
  · have hend : micros = 86400000000 := by omega
    rw [hend]
    exact whole_eq_none (time_endOfDay [])

section

variable {year : Int} {month day : Nat} (hm : 1 ≤ month ∧ month ≤ 12) (hd : 1 ≤ day ∧ day ≤ 31)
include hm hd

theorem Date.ofText?_text :
    Date.ofText? (String.ofList (dateText (yearNumber year) month day ++ eraText year)) =
      if IsPlainYear year then Date.ofYmd? year month day else none := by
  simp only [isPlainYear_iff]
  by_cases hlt : yearNumber year < 10000
  · rw [Date.ofText?, whole_eq (f := id) (date_dateText hlt hm hd _), Option.map_id, id_eq]
    by_cases hera : eraText year = []
    · rw [if_pos hera, if_pos ⟨hlt, hera⟩, cast_yearNumber hera]
    · rw [if_neg hera, if_neg fun h => hera h.2]
  · rw [if_neg fun h => hlt h.1, dateText, List.append_assoc]
    exact whole_eq_none (date_longYear (Nat.le_of_not_lt hlt) _)

variable {micros : Nat} (hmicros : micros < 86400000000)
include hmicros

theorem Timestamp.ofText?_text :
    Timestamp.ofText? (String.ofList (dateText (yearNumber year) month day ++
        ' ' :: (ClockReading.text micros ++ eraText year))) =
      if IsPlainYear year then
        (Date.ofYmd? year month day).map fun date => ⟨date, TimeOfDay.ofMicroseconds micros⟩
      else none := by
  simp only [isPlainYear_iff]
  by_cases hlt : yearNumber year < 10000
  · rw [Timestamp.ofText?,
      whole_eq (timestamp_text hlt hm hd hmicros (endsReading_eraText year))]
    by_cases hera : eraText year = []
    · rw [if_pos hera, if_pos ⟨hlt, hera⟩, cast_yearNumber hera]
    · rw [if_neg hera, if_neg fun h => hera h.2]
  · rw [if_neg fun h => hlt h.1]
    exact whole_eq_none (timestamp_longYear (Nat.le_of_not_lt hlt) _ _ _)

theorem zoned_text {offset : Int} (hoffset : offset.natAbs < 86400) :
    whole zoned (String.ofList (dateText (yearNumber year) month day ++
        ' ' :: (ClockReading.text micros ++ (zoneText offset ++ eraText year)))) =
      if IsPlainYear year ∧ offset % 60 = 0 then
        (Date.ofYmd? year month day).map fun date =>
          (⟨date, TimeOfDay.ofMicroseconds micros⟩, offset)
      else none := by
  simp only [isPlainYear_iff]
  by_cases hlt : yearNumber year < 10000
  · have hread := timestamp_text hlt hm hd hmicros (endsReading_zoneText offset (eraText year))
    have hzone := zoneOffset_zoneText hoffset year
    split at hzone
    · rename_i hends
      rw [cast_yearNumber hends.2] at hread
      rw [if_pos ⟨⟨hlt, hends.2⟩, hends.1⟩]
      refine (whole_eq (o := Date.ofYmd? year month day) ?_).trans (if_pos rfl)
      rw [zoned, hread]
      cases Date.ofYmd? year month day with
      | none => rfl
      | some date =>
          simp only [Option.map_some, Option.bind_eq_bind, Option.bind_some, hzone]
          rfl
    · rename_i hends
      rw [if_neg fun h => hends ⟨h.2, h.1.2⟩]
      refine whole_eq_none_of_left fun value hvalue => ?_
      rw [zoned, hread] at hvalue
      rcases Option.bind_eq_some_iff.mp hvalue with ⟨⟨t, left⟩, ht, hleft⟩
      rcases Option.map_eq_some_iff.mp ht with ⟨date, -, heq⟩
      cases heq
      rcases Option.bind_eq_some_iff.mp hleft with ⟨⟨o, left⟩, ho, heq⟩
      cases heq
      exact hzone o ho
  · rw [if_neg fun h => hlt h.1.1]
    refine whole_eq_none ?_
    rw [zoned, timestamp_longYear (Nat.le_of_not_lt hlt)]
    rfl

end

end Calendar
end TypedQuery
