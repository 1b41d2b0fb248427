import TypedQuery.Proofs.Expr.Typing
import TypedQuery.Proofs.Server.Equality

/-!
# Folded equality

Constants of one type that are no numbers, truth values or texts are folded to the answer whether
they are the same value.  The server gives that answer too, unless it takes two wordings of one
value to be equal: intervals of one length, times of one microsecond, not-a-number in arrays, and
whole numbers in documents in arrays.
-/

namespace TypedQuery

def BinaryOp.answer : BinaryOp -> Bool -> Bool
  | .ne, equal => !equal
  | _, equal => equal

/-- Types whose values are no documents, numbers, truth values or texts. -/
def SqlType.isOther : SqlType -> Bool
  | .json _ | .boolean | .integer | .bigint | .real | .double | .numeric | .text => false
  | _ => true

namespace Fold

theorem equated_eq {op : BinaryOp} (hop : op = .eq ∨ op = .ne) (equal : Bool) :
    equated op equal = some (boolean (op.answer equal)) := by
  rcases hop with rfl | rfl
  · rfl
  · rfl

/-- Constants of any other type are folded by their parts. -/
theorem binary?_of_isOther {op : BinaryOp} {l r : Typed} (hl : l.fits = true)
    (hr : r.fits = true) (htypes : l.type = r.type) (hother : l.type.isOther = true)
    (hleft : l.value.isNull = false) (hright : r.value.isNull = false) :
    binary? op l r = equated op (l.value.same r.value) := by
  rcases l with ⟨l, lt⟩
  rcases r with ⟨r, rt⟩
  cases htypes
  have hothers : others op ⟨l, lt⟩ ⟨r, lt⟩ = equated op (l.same r) := by
    have hjson : lt.isJson = false := by
      cases lt <;> first | rfl | cases hother
    exact if_pos ⟨rfl, hjson⟩
  rw [<- hothers]
  -- Every pair of values of such a type gets past the cases of numbers, truth values and texts.
  cases lt <;> cases hother <;> cases l <;> first | (cases hl; done) | (cases hleft; done) | skip
  all_goals cases r <;> first | (cases hr; done) | (cases hright; done) | rfl

theorem fold_equated {op : BinaryOp} (hop : op = .eq ∨ op = .ne) {left right : Expr}
    (hleft : left.isTyped = true) (hright : right.isTyped = true) {l r v : Typed}
    (hl : fold left = .constant l) (hr : fold right = .constant r) (htypes : l.type = r.type)
    (hother : l.type.isOther = true) (hv : fold (.binary op left right) = .constant v) :
    v = boolean (op.answer (l.value.same r.value)) := by
  rw [fold, hl, hr] at hv
  rcases binaryNode_cases op (.constant l) (.constant r) with ⟨_, _, w, hc, hd, hw, hnode⟩ | hsame
  · cases hc
    cases hd
    cases hnode.symm.trans hv
    rcases binary?_not_null hw with ⟨hlnull, hrnull⟩
    rw [binary?_of_isOther (fits_of_fold hleft hl) (fits_of_fold hright hr) htypes hother hlnull
      hrnull, equated_eq hop] at hw
    exact (Option.some.inj hw).symm
  · cases hsame.symm.trans hv

theorem boolean_inj {a b : Bool} (h : boolean a = boolean b) : a = b := by
  injection h with hvalue
  injection hvalue

theorem answer_inj (op : BinaryOp) {a b : Bool} : op.answer a = op.answer b <-> a = b := by
  cases op <;> cases a <;> cases b <;> decide

end Fold

open Fold

/-- An equality of constants is folded to the answer of the server just when the server does not
take two wordings of one value to be equal. -/
theorem folded_equality_is_the_servers_iff (clock : Clock) {op : BinaryOp}
    (hop : op = .eq ∨ op = .ne) {left right : Expr} (hleft : left.isTyped = true)
    (hright : right.isTyped = true) {l r v : Typed} (hl : fold left = .constant l)
    (hr : fold right = .constant r) (htypes : l.type = r.type) (hother : l.type.isOther = true)
    (hv : fold (.binary op left right) = .constant v) :
    v = boolean (op.answer (l.value.equals clock r.value)) <->
      ¬ (l.value.equals clock r.value = true ∧ l.value.Reworded clock r.value) := by
  rw [fold_equated hop hleft hright hl hr htypes hother hv]
  have hanswers : boolean (op.answer (l.value.same r.value)) =
      boolean (op.answer (l.value.equals clock r.value)) <->
        l.value.same r.value = l.value.equals clock r.value := by
    constructor
    · intro h
      exact (answer_inj op).mp (boolean_inj h)
    · intro h
      rw [h]
  rw [hanswers]
  cases hequals : l.value.equals clock r.value with
  | true =>
      rw [Value.same_iff_of_equals hequals]
      constructor
      · rintro h ⟨-, hreworded⟩
        exact h hreworded
      · intro h hreworded
        exact h ⟨rfl, hreworded⟩
  | false =>
      constructor
      · rintro - ⟨h, -⟩
        cases h
      · intro _
        rw [<- Bool.not_eq_true]
        intro hsame
        cases (Value.equals_of_same hsame).symm.trans hequals

def leapSecond : Calendar.TimeOfDay := { seconds := 43259, nanos := 1000000000 }

def nextMinute : Calendar.TimeOfDay :=
  { seconds := 43260, nanos := 0, nanos_lt := Calendar.TimeOfDay.midnight.nanos_lt }

def timesOf (t : Calendar.TimeOfDay) : Typed := ⟨.array [.null, .time t], .array .time⟩

/-- A leap second within the day is the next minute to every server, but not to the fold. -/
theorem leap_second_folded_apart :
    fold (.binary .ne (.constant (timesOf leapSecond)) (.constant (timesOf nextMinute))) =
        .constant (boolean true) ∧
      forall clock : Clock, boolean true ≠ boolean (BinaryOp.ne.answer
        ((timesOf leapSecond).value.equals clock (timesOf nextMinute).value)) := by
  have hfold : fold (.binary .ne (.constant (timesOf leapSecond))
      (.constant (timesOf nextMinute))) = .constant (boolean true) := by rfl
  constructor
  · exact hfold
  · intro clock hanswer
    have hclock : clock.time leapSecond = clock.time nextMinute := rfl
    have hreworded : (timesOf leapSecond).value.Reworded clock (timesOf nextMinute).value :=
      Value.Reworded.item (i := 1) rfl rfl (Value.Reworded.time (by decide) hclock)
    have hequals : (timesOf leapSecond).value.equals clock (timesOf nextMinute).value = true := by
      show (clock.time leapSecond == clock.time nextMinute && true) = true
      rw [hclock, beq_self_eq_true]
      rfl
    have hleft : (Expr.constant (timesOf leapSecond)).isTyped = true := rfl
    have hright : (Expr.constant (timesOf nextMinute)).isTyped = true := rfl
    have hiff := folded_equality_is_the_servers_iff clock (Or.inr rfl) hleft hright rfl rfl rfl rfl
      hfold
    exact hiff.mp hanswer ⟨hequals, hreworded⟩

def month : Typed := ⟨.interval ⟨1, 0, 0⟩, .interval⟩

def thirtyDays : Typed := ⟨.interval ⟨0, 30, 0⟩, .interval⟩

/-- A month and thirty days are folded to be different, and are equal on every server. -/
theorem month_folded_apart_from_thirty_days :
    fold (.binary .eq (.constant month) (.constant thirtyDays)) = .constant (boolean false) ∧
      forall clock, month.value.equals clock thirtyDays.value = true := by
  constructor
  · rfl
  · intro clock
    rfl

end TypedQuery
