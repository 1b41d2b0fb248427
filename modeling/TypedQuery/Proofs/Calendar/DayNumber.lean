import Mathlib.Tactic.IntervalCases
import TypedQuery.Calendar.Timestamp

/-!
# Days and their numbers

A day is found again from its number, also where the years have no dates.  A year from March is
told apart from its neighbours by the centuries, the groups of four years and the years in a group
that lie before it.
-/

namespace TypedQuery
namespace Calendar

namespace Date

theorem isLeapYear_iff {year : Int} :
    isLeapYear year = true <-> year % 4 = 0 ∧ (year % 100 ≠ 0 ∨ year % 400 = 0) := by
  simp only [isLeapYear, Bool.or_eq_true, Bool.and_eq_true, beq_iff_eq, bne_iff_ne]
  omega

theorem month_bounds {year : Int} {month day : Nat} (hday : 1 ≤ day)
    (hlength : day ≤ daysInMonth year month) : 1 ≤ month ∧ month ≤ 12 := by
  by_contra hout
  have hnone : daysInMonth year month = 0 := by
    rw [daysInMonth] <;> omega
  omega

theorem day_le {year : Int} {month day : Nat} (hlength : day ≤ daysInMonth year month) :
    day ≤ 31 := by
  refine hlength.trans ?_
  unfold daysInMonth
  split <;> try split
  all_goals decide

theorem month_of_monthFromMarch {month : Nat} (h : 1 ≤ month ∧ month ≤ 12) :
    (if (month + 9) % 12 < 10 then (month + 9) % 12 + 3 else (month + 9) % 12 - 9) = month := by
  split <;> omega

theorem month_of_dayOfYear {year : Int} {month day : Nat} (hday : 1 ≤ day)
    (hlength : day ≤ daysInMonth year month) :
    let monthFromMarch := (month + 9) % 12
    let dayOfYear := daysBefore monthFromMarch + (day - 1)
    (5 * dayOfYear + 2) / 153 = monthFromMarch ∧ dayOfYear ≤ 365 ∧
      (dayOfYear = 365 -> month = 2 ∧ isLeapYear year = true) := by
  rcases month_bounds hday hlength with ⟨hlow, hhigh⟩
  by_cases htwo : month = 2
  · subst htwo
    simp only [daysInMonth] at hlength
    simp only [daysBefore]
    split at hlength
    · rename_i hleap
      refine ⟨by omega, by omega, fun _ => ⟨trivial, hleap⟩⟩
    · refine ⟨by omega, by omega, fun _ => by omega⟩
  · interval_cases month <;> simp only [daysInMonth, daysBefore] at hlength ⊢ <;> omega

theorem yearOfEra_of_dayOfEra {century fours year dayOfYear dayOfEra : Nat} (hcentury : century < 4)
    (hfours : fours < 25) (hyear : year < 4) (hday : dayOfYear ≤ 365)
    (hleap : dayOfYear = 365 -> year = 3 ∧ (fours ≠ 24 ∨ century = 3))
    (hdays : dayOfEra = 36524 * century + 1461 * fours + 365 * year + dayOfYear) :
    (dayOfEra - dayOfEra / 1460 + dayOfEra / 36524 - dayOfEra / 146096) / 365 =
      100 * century + 4 * fours + year := by
  by_cases hlast : fours = 24 ∧ dayOfYear = 365
  · rcases hlast with ⟨rfl, rfl⟩
    rcases hleap rfl with ⟨rfl, hlong⟩
    have hfourth : century = 3 := by omega
    subst hfourth hdays
    decide
  · have h36524 : dayOfEra / 36524 = century := by omega
    have h146096 : dayOfEra / 146096 = 0 := by omega
    have h1460 : dayOfEra / 1460 = 25 * century + fours +
        (365 * year + fours + dayOfYear + 24 * century) / 1460 := by omega
    have hone : (365 * year + fours + dayOfYear + 24 * century) / 1460 ≤ 1 := by omega
    have hend : dayOfYear = 365 -> (365 * year + fours + dayOfYear + 24 * century) / 1460 = 1 := by
      intro h
      have hthird := (hleap h).1
      omega
    have hstart : dayOfYear = 0 -> (365 * year + fours + dayOfYear + 24 * century) / 1460 = 0 := by
      intro h
      omega
    rw [h36524, h146096, h1460]
    generalize (365 * year + fours + dayOfYear + 24 * century) / 1460 = extra at *
    omega

def daysOfEra (yearOfEra dayOfYear : Nat) : Nat :=
  365 * yearOfEra + yearOfEra / 4 - yearOfEra / 100 + dayOfYear

theorem daysOfEra_eq (yearOfEra dayOfYear : Nat) (h : yearOfEra < 400) :
    daysOfEra yearOfEra dayOfYear = 36524 * (yearOfEra / 100) + 1461 * (yearOfEra % 100 / 4) +
      365 * (yearOfEra % 4) + dayOfYear := by
  rw [daysOfEra]
  omega

theorem exists_era (year : Int) {month day : Nat} (hday : 1 ≤ day)
    (hlength : day ≤ daysInMonth year month) :
    exists (era : Int) (yearOfEra : Nat), yearOfEra < 400 ∧
      era * 400 + yearOfEra + (if month ≤ 2 then 1 else 0) = year ∧
      dayNumber year month day + 730425 = era * 146097 +
        daysOfEra yearOfEra (daysBefore ((month + 9) % 12) + (day - 1)) ∧
      daysOfEra yearOfEra (daysBefore ((month + 9) % 12) + (day - 1)) < 146097 ∧
      (daysBefore ((month + 9) % 12) + (day - 1) = 365 ->
        yearOfEra % 4 = 3 ∧ (yearOfEra % 100 / 4 ≠ 24 ∨ yearOfEra / 100 = 3)) := by
  rcases month_of_dayOfYear hday hlength with ⟨-, hyearDay, hleap⟩
  have hlong : daysBefore ((month + 9) % 12) + (day - 1) = 365 -> month = 2 ∧
      year % 4 = 0 ∧ (year % 100 ≠ 0 ∨ year % 400 = 0) := by
    intro h
    exact ⟨(hleap h).1, isLeapYear_iff.mp (hleap h).2⟩
  refine ⟨(if month ≤ 2 then year - 1 else year) / 400,
    ((if month ≤ 2 then year - 1 else year) % 400).toNat, ?_, ?_, ?_, ?_, ?_⟩
  · omega
  · split <;> omega
  · rw [dayNumber, daysOfEra, Int.fdiv_eq_ediv_of_nonneg _ (by decide),
      Int.fmod_eq_emod_of_nonneg _ (by decide)]
    generalize (if month ≤ 2 then year - 1 else year) = shifted
    generalize daysBefore ((month + 9) % 12) = before
    omega
  · rw [daysOfEra]
    split at * <;> omega
  · intro h
    rcases hlong h with ⟨rfl, hfour, hhundred⟩
    rw [if_pos (by decide)]
    omega

/-- The date of a day number is that of the day; it exists unless the year has no dates. -/
theorem ofDayNumber?_dayNumber {year : Int} {month day : Nat} (hday : 1 ≤ day)
    (hlength : day ≤ daysInMonth year month) :
    ofDayNumber? (dayNumber year month day) = ofYmd? year month day := by
  rcases exists_era year hday hlength with ⟨era, yearOfEra, hera, hyear, hnumber, hlt, hleap⟩
  rcases month_of_dayOfYear hday hlength with ⟨hmonth, hyearDay, -⟩
  generalize hdays : daysBefore ((month + 9) % 12) + (day - 1) = dayOfYear at *
  have hback := yearOfEra_of_dayOfEra (by omega) (by omega) (by omega) hyearDay hleap
    (daysOfEra_eq yearOfEra dayOfYear hera)
  have hquotient : (era * 146097 + (daysOfEra yearOfEra dayOfYear : Nat)).fdiv 146097 = era := by
    rw [Int.fdiv_eq_ediv_of_nonneg _ (by decide)]
    omega
  have hremainder : ((era * 146097 + (daysOfEra yearOfEra dayOfYear : Nat)).fmod 146097).toNat =
      daysOfEra yearOfEra dayOfYear := by
    rw [Int.fmod_eq_emod_of_nonneg _ (by decide)]
    omega
  have hsum : 100 * (yearOfEra / 100) + 4 * (yearOfEra % 100 / 4) + yearOfEra % 4 = yearOfEra := by
    omega
  rw [hsum] at hback
  have hrest : daysOfEra yearOfEra dayOfYear -
      (365 * yearOfEra + yearOfEra / 4 - yearOfEra / 100) = dayOfYear := by
    rw [daysOfEra]
    omega
  have hdayAgain : dayOfYear - daysBefore ((month + 9) % 12) + 1 = day := by
    rw [<- hdays, Nat.add_sub_cancel_left, Nat.sub_add_cancel hday]
  rw [ofDayNumber?, hnumber, hquotient, hremainder, hback, hrest, hmonth, hdayAgain,
    month_of_monthFromMarch (month_bounds hday hlength), hyear]

theorem isDay_iff {year : Int} {month day : Nat} :
    isDay year month day = true <->
      -262143 ≤ year ∧ year ≤ 262142 ∧ 1 ≤ day ∧ day ≤ daysInMonth year month := by
  simp only [isDay, Bool.and_eq_true, decide_eq_true_eq, and_assoc]

theorem ofDayNumber?_toDayNumber (d : Date) : ofDayNumber? d.toDayNumber = some d := by
  rcases isDay_iff.mp d.valid with ⟨-, -, hday, hlength⟩
  rw [toDayNumber, ofDayNumber?_dayNumber hday hlength, ofYmd?_self]

end Date
end Calendar
end TypedQuery
