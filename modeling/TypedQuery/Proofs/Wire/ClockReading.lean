import Mathlib.Data.List.DropRight
import TypedQuery.Number.Rounding
import TypedQuery.Text.Blank

/-!
# Clock readings as the server writes them

Hours, minutes and seconds have at least two digits.  The microseconds stand behind a point, without
the zeros at their end; if there are none, there is no point.
-/

namespace TypedQuery
namespace Wire

open Number

namespace ClockReading

theorem isDigit_iff {c : Char} : c.isDigit = true <-> 48 ≤ c.toNat ∧ c.toNat ≤ 57 := by
  simp only [Char.isDigit, Bool.and_eq_true, decide_eq_true_eq]
  exact Iff.rfl

theorem not_isBlank_of_isDigit {c : Char} (h : c.isDigit = true) : Text.isBlank c = false := by
  rcases isDigit_iff.mp h with ⟨hlow, hhigh⟩
  simp only [Text.isBlank, Bool.or_eq_false_iff, Bool.and_eq_false_iff, decide_eq_false_iff_not,
    beq_eq_false_iff_ne]
  omega

def twoDigits (n : Nat) : List Char := (padded 2 n).toList

def fractionDigits (micros : Nat) : List Char := (padded 6 micros).toList.rdropWhile (· == '0')

def fractionText (micros : Nat) : List Char :=
  if micros = 0 then [] else '.' :: fractionDigits micros

/-- The reading so many microseconds behind zero; hours are not turned into days. -/
def text (micros : Nat) : List Char :=
  let seconds := micros / 1000000
  twoDigits (seconds / 3600) ++ ':' :: (twoDigits (seconds / 60 % 60) ++ ':' ::
    (twoDigits (seconds % 60) ++ fractionText (micros % 1000000)))

theorem isDigit_of_mem_twoDigits {n : Nat} {c : Char} (h : c ∈ twoDigits n) : c.isDigit = true :=
  isDigit_of_mem_padded h

theorem twoDigits_ne_nil (n : Nat) : twoDigits n ≠ [] := by
  rw [twoDigits, toList_padded]
  exact List.append_ne_nil_of_right_ne_nil _ (toString_ne_nil n)

theorem text_ne_nil (micros : Nat) : text micros ≠ [] :=
  List.append_ne_nil_of_left_ne_nil (twoDigits_ne_nil _) _

theorem isDigit_of_head?_text {micros : Nat} {c : Char} (h : (text micros).head? = some c) :
    c.isDigit = true := by
  rw [text, List.head?_append_of_ne_nil _ (twoDigits_ne_nil _)] at h
  exact isDigit_of_mem_twoDigits (List.mem_of_mem_head? h)

theorem isDigit_of_mem_fractionDigits {micros : Nat} {c : Char} (h : c ∈ fractionDigits micros) :
    c.isDigit = true := by
  have hfront := List.rdropWhile_prefix (· == '0') (padded 6 micros).toList
  exact isDigit_of_mem_padded (hfront.subset h)

theorem length_sixDigits {micros : Nat} (h : micros < 1000000) :
    (padded 6 micros).toList.length = 6 := by
  have hpower : tenPow 6 = 1000000 := by decide
  exact length_padded (by decide) (hpower.symm ▸ h)

theorem rdropWhile_append_zeros (digits : List Char) :
    digits.rdropWhile (· == '0') ++
        List.replicate (digits.length - (digits.rdropWhile (· == '0')).length) '0' = digits := by
  have hsplit := List.rdropWhile_append_rtakeWhile (p := (· == '0')) (l := digits)
  have hzeros : forall c, c ∈ digits.rtakeWhile (· == '0') -> c = '0' := by
    intro c hc
    simpa only [beq_iff_eq] using List.mem_rtakeWhile_imp hc
  have hlength := congrArg List.length hsplit
  rw [List.length_append] at hlength
  rw [List.eq_replicate_of_mem hzeros] at hsplit
  rwa [<- hlength, Nat.add_sub_cancel_left]

theorem fractionDigits_append_zeros {micros : Nat} (h : micros < 1000000) :
    fractionDigits micros ++ List.replicate (6 - (fractionDigits micros).length) '0' =
      (padded 6 micros).toList := by
  have hfill := rdropWhile_append_zeros (padded 6 micros).toList
  rw [length_sixDigits h] at hfill
  exact hfill

theorem length_fractionDigits_le {micros : Nat} (h : micros < 1000000) :
    (fractionDigits micros).length ≤ 6 := by
  have hlength := (congrArg List.length (fractionDigits_append_zeros h)).trans (length_sixDigits h)
  rw [List.length_append] at hlength
  omega

theorem ofDigits_fractionDigits {micros : Nat} (h : micros < 1000000) :
    ofDigits (fractionDigits micros) * tenPow (6 - (fractionDigits micros).length) = micros := by
  have hvalue := congrArg ofDigits (fractionDigits_append_zeros h)
  rw [ofDigits_append, ofDigits_zeros, ofDigits_padded, List.length_replicate,
    Nat.add_zero] at hvalue
  exact hvalue

theorem fractionDigits_ne_nil {micros : Nat} (hpos : micros ≠ 0) (h : micros < 1000000) :
    fractionDigits micros ≠ [] := by
  intro hnil
  have hvalue := ofDigits_fractionDigits h
  rw [hnil] at hvalue
  exact hpos (hvalue.symm.trans (Nat.zero_mul _))

end ClockReading
end Wire
end TypedQuery
