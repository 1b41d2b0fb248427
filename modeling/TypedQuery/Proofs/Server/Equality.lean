import TypedQuery.Sql.Value

/-!
# Equality on the server

The server counts microseconds, compares intervals by their length and the numbers of documents
as decimals, and takes not-a-number to be equal to itself.  Two values are the same value only if
they are equal there; values that are equal there and not the same differ in the wording of some
part: of an interval, of a time, of not-a-number, or of a whole number inside a document.
-/

namespace TypedQuery

theorem related_of_getElem? {α : Type} {p : List α -> List α -> Bool} {r : α -> α -> Prop}
    (hcons : forall a as b bs, p (a :: as) (b :: bs) = true -> r a b ∧ p as bs = true)
    {as bs : List α} {i : Nat} {a b : α} (h : p as bs = true) (ha : as[i]? = some a)
    (hb : bs[i]? = some b) : r a b := by
  induction as generalizing bs i with
  | nil => cases ha
  | cons c as ih =>
      cases bs with
      | nil => cases hb
      | cons d bs =>
          rcases hcons c as d bs h with ⟨hhead, htail⟩
          cases i with
          | zero =>
              cases ha
              cases hb
              exact hhead
          | succ i => exact ih htail ha hb

/-!
## Numbers
-/

namespace Number

theorem beq_eq_false_of_isNaN {x : Float} (h : x.isNaN = true) (y : Float) : (x == y) = false := by
  have hx : x.toModel.unpack.isNaN = true := h
  show x.toModel.unpack.beq y.toModel.unpack = false
  cases hunpack : x.toModel.unpack with
  | notANumber => rfl
  | _ =>
      rw [hunpack] at hx
      cases hx

/-- Floating point numbers are equal as they compare, and not-a-number is equal to itself. -/
def equals (x y : Float) : Bool := (x.isNaN && y.isNaN) || x == y

theorem equals_and_not_beq {x y : Float} :
    equals x y = true ∧ (x == y) = false <-> x.isNaN = true ∧ y.isNaN = true := by
  constructor
  · rintro ⟨hequals, hbeq⟩
    rwa [equals, hbeq, Bool.or_false, Bool.and_eq_true] at hequals
  · rintro ⟨hx, hy⟩
    constructor
    · rw [equals, hx, hy]
      rfl
    · exact beq_eq_false_of_isNaN hx y

/-- Whether a double is written inside a document with the digits of a whole number, zeros after
them or after the point not counting. -/
def Double.isWritten (d : Double) (n : Int) : Bool :=
  match d.decode with
  | .finite negative mantissa power =>
      if mantissa = 0 then n == 0
      else
        let text := shortest .double FloatLayout.json.tieUp mantissa power
        decide (n < 0) == negative &&
          text.digits * tenPow text.exponent.toNat == n.natAbs * tenPow (-text.exponent).toNat
  | _ => false

end Number

/-!
## Documents
-/

/-- Numbers of documents are decimals: a double may be equal to a whole number. -/
def JsonNumber.equals : JsonNumber -> JsonNumber -> Bool
  | .integer a, .integer b => a == b
  | .double a, .double b => a.toFloat == b.toFloat
  | .integer n, .double d => d.isWritten n
  | .double d, .integer n => d.isWritten n

namespace Json

mutual

def equals : Json -> Json -> Bool
  | .null, .null => true
  | .bool a, .bool b => a == b
  | .number a, .number b => a.equals b
  | .string a, .string b => a == b
  | .array as, .array bs => equalItems as bs
  | .object as, .object bs => equalMembers as bs
  | _, _ => false

def equalItems : List Json -> List Json -> Bool
  | [], [] => true
  | a :: as, b :: bs => equals a b && equalItems as bs
  | _, _ => false

def equalMembers : List (String × Json) -> List (String × Json) -> Bool
  | [], [] => true
  | (k, a) :: as, (l, b) :: bs => k == l && equals a b && equalMembers as bs
  | _, _ => false

end

/-- Documents with a whole number on one side, and on the other side, at the same place, a double
that is written with its digits. -/
inductive Reworded : Json -> Json -> Prop
  | whole {n : Int} {d : Number.Double} (h : d.isWritten n = true) :
      Reworded (.number (.integer n)) (.number (.double d))
  | double {n : Int} {d : Number.Double} (h : d.isWritten n = true) :
      Reworded (.number (.double d)) (.number (.integer n))
  | item {as bs : List Json} {i : Nat} {a b : Json} (ha : as[i]? = some a) (hb : bs[i]? = some b)
      (h : Reworded a b) : Reworded (.array as) (.array bs)
  | member {as bs : List (String × Json)} {i : Nat} {a b : String × Json}
      (ha : as[i]? = some a) (hb : bs[i]? = some b) (h : Reworded a.2 b.2) :
      Reworded (.object as) (.object bs)

mutual

theorem equals_of_same {a b : Json} (h : a.same b = true) : a.equals b = true := by
  cases a with
  | null => cases b <;> first | rfl | cases h
  | bool x => cases b <;> exact h
  | string x => cases b <;> exact h
  | number x =>
      cases b with
      | number y => cases x <;> cases y <;> first | exact h | cases h
      | _ => cases h
  | array as =>
      cases b with
      | array bs => exact equalItems_of_sameItems h
      | _ => cases h
  | object as =>
      cases b with
      | object bs => exact equalMembers_of_sameMembers h
      | _ => cases h

theorem equalItems_of_sameItems {as bs : List Json} (h : sameItems as bs = true) :
    equalItems as bs = true := by
  cases as with
  | nil => cases bs <;> first | rfl | cases h
  | cons a as =>
      cases bs with
      | nil => cases h
      | cons b bs =>
          rw [sameItems, Bool.and_eq_true] at h
          rw [equalItems, equals_of_same h.1, equalItems_of_sameItems h.2]
          rfl

theorem equalMembers_of_sameMembers {as bs : List (String × Json)}
    (h : sameMembers as bs = true) : equalMembers as bs = true := by
  cases as with
  | nil => cases bs <;> first | rfl | cases h
  | cons a as =>
      cases bs with
      | nil => cases h
      | cons b bs =>
          rcases a with ⟨k, a⟩
          rcases b with ⟨l, b⟩
          rw [sameMembers, Bool.and_eq_true, Bool.and_eq_true] at h
          rw [equalMembers, h.1.1, equals_of_same h.1.2, equalMembers_of_sameMembers h.2]
          rfl

end

theorem same_of_sameItems {as bs : List Json} {i : Nat} {a b : Json}
    (h : sameItems as bs = true) (ha : as[i]? = some a) (hb : bs[i]? = some b) :
    a.same b = true := by
  apply related_of_getElem? (p := sameItems) (fun _ _ _ _ h => ?_) h ha hb
  rwa [sameItems, Bool.and_eq_true] at h

theorem same_of_sameMembers {as bs : List (String × Json)} {i : Nat} {a b : String × Json}
    (h : sameMembers as bs = true) (ha : as[i]? = some a) (hb : bs[i]? = some b) :
    a.2.same b.2 = true := by
  apply related_of_getElem? (p := sameMembers) (r := fun a b => a.2.same b.2 = true)
    (fun _ _ _ _ h => ?_) h ha hb
  rw [sameMembers, Bool.and_eq_true, Bool.and_eq_true] at h
  exact ⟨h.1.2, h.2⟩

theorem not_same_of_reworded {a b : Json} (h : Reworded a b) : a.same b = false := by
  induction h with
  | whole => rfl
  | double => rfl
  | item ha hb _ ih =>
      rw [<- Bool.not_eq_true]
      intro hsame
      cases (same_of_sameItems hsame ha hb).symm.trans ih
  | member ha hb _ ih =>
      rw [<- Bool.not_eq_true]
      intro hsame
      cases (same_of_sameMembers hsame ha hb).symm.trans ih

mutual

theorem reworded_of_not_same {a b : Json} (hequals : a.equals b = true)
    (hsame : a.same b = false) : Reworded a b := by
  cases a with
  | null => cases b <;> cases hequals.symm.trans hsame
  | bool x => cases b <;> cases hequals.symm.trans hsame
  | string x => cases b <;> cases hequals.symm.trans hsame
  | number x =>
      cases b with
      | number y =>
          cases x <;> cases y
          · cases hequals.symm.trans hsame
          · exact Reworded.whole hequals
          · exact Reworded.double hequals
          · cases hequals.symm.trans hsame
      | _ => cases hequals
  | array as =>
      cases b with
      | array bs =>
          rcases exists_reworded_item hequals hsame with ⟨i, a, b, ha, hb, h⟩
          exact Reworded.item ha hb h
      | _ => cases hequals
  | object as =>
      cases b with
      | object bs =>
          rcases exists_reworded_member hequals hsame with ⟨i, a, b, ha, hb, h⟩
          exact Reworded.member ha hb h
      | _ => cases hequals

theorem exists_reworded_item {as bs : List Json} (hequals : equalItems as bs = true)
    (hsame : sameItems as bs = false) :
    exists (i : Nat) (a b : Json), as[i]? = some a ∧ bs[i]? = some b ∧ Reworded a b := by
  cases as with
  | nil =>
      cases bs with
      | nil => cases hequals.symm.trans hsame
      | cons b bs => cases hequals
  | cons a as =>
      cases bs with
      | nil => cases hequals
      | cons b bs =>
          rw [equalItems, Bool.and_eq_true] at hequals
          rw [sameItems, Bool.and_eq_false_iff] at hsame
          rcases hsame with hsame | hsame
          · exact ⟨0, a, b, rfl, rfl, reworded_of_not_same hequals.1 hsame⟩
          · rcases exists_reworded_item hequals.2 hsame with ⟨i, c, d, hc, hd, h⟩
            exact ⟨i + 1, c, d, hc, hd, h⟩

theorem exists_reworded_member {as bs : List (String × Json)}
    (hequals : equalMembers as bs = true) (hsame : sameMembers as bs = false) :
    exists (i : Nat) (a b : String × Json),
      as[i]? = some a ∧ bs[i]? = some b ∧ Reworded a.2 b.2 := by
  cases as with
  | nil =>
      cases bs with
      | nil => cases hequals.symm.trans hsame
      | cons b bs => cases hequals
  | cons a as =>
      cases bs with
      | nil => cases hequals
      | cons b bs =>
          rcases a with ⟨k, a⟩
          rcases b with ⟨l, b⟩
          rw [equalMembers, Bool.and_eq_true, Bool.and_eq_true] at hequals
          rw [sameMembers, hequals.1.1, Bool.true_and, Bool.and_eq_false_iff] at hsame
          rcases hsame with hsame | hsame
          · exact ⟨0, (k, a), (l, b), rfl, rfl, reworded_of_not_same hequals.1.2 hsame⟩
          · rcases exists_reworded_member hequals.2 hsame with ⟨i, c, d, hc, hd, h⟩
            exact ⟨i + 1, c, d, hc, hd, h⟩

end

end Json

/-!
## Times
-/

/-- How the server makes microseconds of nanoseconds; whole microseconds are kept. -/
structure Clock where
  microseconds : Int -> Int
  whole : forall n, microseconds (1000 * n) = n

namespace Clock

/-- Nanoseconds are cut off toward zero, as they are when a value is sent in binary. -/
def cut : Clock where
  microseconds n := n.tdiv 1000
  whole n := Int.mul_tdiv_cancel_left n (by decide)

/-- Nanoseconds are rounded, a half going to the even neighbour, as they are when the text of a
value is read. -/
def nearest : Clock where
  microseconds n :=
    if 500 < n % 1000 ∨ (n % 1000 = 500 ∧ n / 1000 % 2 = 1) then n / 1000 + 1 else n / 1000
  whole n := by
    rw [if_neg (by omega)]
    omega

example : cut.microseconds 1500 = 1 ∧ nearest.microseconds 1500 = 2 ∧
    nearest.microseconds 2500 = 2 := by decide

def time (clock : Clock) (t : Calendar.TimeOfDay) : Int :=
  clock.microseconds ((t.seconds : Int) * 1000000000 + t.nanos)

def timestamp (clock : Clock) (t : Calendar.Timestamp) : Int :=
  clock.microseconds
    ((t.date.toDayNumber * 86400 + t.time.seconds) * 1000000000 + t.time.nanos)

end Clock

/-- The length of an interval in microseconds, a month having 30 days and a day 24 hours. -/
def Interval.span (i : Interval) : Int :=
  (i.months.toInt * 30 + i.days.toInt) * 86400000000 + i.microseconds.toInt

/-!
## Values
-/

namespace Value

mutual

def equals (clock : Clock) : Value -> Value -> Bool
  | .null, .null => true
  | .bool a, .bool b => a == b
  | .int a, .int b => a == b
  | .bigint a, .bigint b => a == b
  | .float a, .float b => Number.equals a.widen.toFloat b.widen.toFloat
  | .double a, .double b => Number.equals a.toFloat b.toFloat
  | .decimal a, .decimal b => a.compare b == .eq
  | .text a, .text b => a == b
  | .uuid a, .uuid b => a == b
  | .date a, .date b => a == b
  | .time a, .time b => clock.time a == clock.time b
  | .timestamp a, .timestamp b => clock.timestamp a == clock.timestamp b
  | .interval a, .interval b => a.span == b.span
  | .bytes a, .bytes b => a == b
  | .json a, .json b => a.equals b
  | .enum a, .enum b => a == b
  | .array as, .array bs => equalItems clock as bs
  | _, _ => false

def equalItems (clock : Clock) : List Value -> List Value -> Bool
  | [], [] => true
  | a :: as, b :: bs => equals clock a b && equalItems clock as bs
  | _, _ => false

end

/-- Values that the server cannot tell apart although they are not the same: intervals of one
length, times of one microsecond, not-a-number, documents with a number worded in two ways, or
arrays with such items at one place. -/
inductive Reworded (clock : Clock) : Value -> Value -> Prop
  | real {x y : Number.Single} (hx : x.widen.toFloat.isNaN = true)
      (hy : y.widen.toFloat.isNaN = true) : Reworded clock (.float x) (.float y)
  | double {x y : Number.Double} (hx : x.toFloat.isNaN = true) (hy : y.toFloat.isNaN = true) :
      Reworded clock (.double x) (.double y)
  | time {a b : Calendar.TimeOfDay} (hne : a ≠ b) (h : clock.time a = clock.time b) :
      Reworded clock (.time a) (.time b)
  | timestamp {a b : Calendar.Timestamp} (hne : a ≠ b)
      (h : clock.timestamp a = clock.timestamp b) : Reworded clock (.timestamp a) (.timestamp b)
  | interval {a b : Interval} (hne : a ≠ b) (h : a.span = b.span) :
      Reworded clock (.interval a) (.interval b)
  | json {a b : Json} (h : Json.Reworded a b) : Reworded clock (.json a) (.json b)
  | item {as bs : List Value} {i : Nat} {a b : Value} (ha : as[i]? = some a)
      (hb : bs[i]? = some b) (h : Reworded clock a b) : Reworded clock (.array as) (.array bs)

variable {clock : Clock}

mutual

theorem equals_of_same {a b : Value} (h : a.same b = true) : a.equals clock b = true := by
  cases a with
  | float x =>
      cases b with
      | float y => exact Bool.or_eq_true_iff.mpr (Or.inr h)
      | _ => cases h
  | double x =>
      cases b with
      | double y => exact Bool.or_eq_true_iff.mpr (Or.inr h)
      | _ => cases h
  | time x =>
      cases b with
      | time y =>
          cases eq_of_beq (show (x == y) = true from h)
          exact beq_self_eq_true (clock.time x)
      | _ => cases h
  | timestamp x =>
      cases b with
      | timestamp y =>
          cases eq_of_beq (show (x == y) = true from h)
          exact beq_self_eq_true (clock.timestamp x)
      | _ => cases h
  | interval x =>
      cases b with
      | interval y =>
          cases eq_of_beq (show (x == y) = true from h)
          exact beq_self_eq_true x.span
      | _ => cases h
  | json x =>
      cases b with
      | json y => exact Json.equals_of_same h
      | _ => cases h
  | array as =>
      cases b with
      | array bs => exact equalItems_of_sameItems h
      | _ => cases h
  | _ => cases b <;> exact h

theorem equalItems_of_sameItems {as bs : List Value} (h : sameItems as bs = true) :
    equalItems clock as bs = true := by
  cases as with
  | nil => cases bs <;> first | rfl | cases h
  | cons a as =>
      cases bs with
      | nil => cases h
      | cons b bs =>
          rw [sameItems, Bool.and_eq_true] at h
          rw [equalItems, equals_of_same h.1, equalItems_of_sameItems h.2]
          rfl

end

theorem same_of_sameItems {as bs : List Value} {i : Nat} {a b : Value}
    (h : sameItems as bs = true) (ha : as[i]? = some a) (hb : bs[i]? = some b) :
    a.same b = true := by
  apply related_of_getElem? (p := sameItems) (fun _ _ _ _ h => ?_) h ha hb
  rwa [sameItems, Bool.and_eq_true] at h

theorem not_same_of_reworded {a b : Value} (h : Reworded clock a b) : a.same b = false := by
  induction h with
  | real hx _ => exact Number.beq_eq_false_of_isNaN hx _
  | double hx _ => exact Number.beq_eq_false_of_isNaN hx _
  | time hne _ => exact beq_eq_false_iff_ne.mpr hne
  | timestamp hne _ => exact beq_eq_false_iff_ne.mpr hne
  | interval hne _ => exact beq_eq_false_iff_ne.mpr hne
  | json h => exact Json.not_same_of_reworded h
  | item ha hb _ ih =>
      rw [<- Bool.not_eq_true]
      intro hsame
      cases (same_of_sameItems hsame ha hb).symm.trans ih

mutual

theorem reworded_of_not_same {a b : Value} (hequals : a.equals clock b = true)
    (hsame : a.same b = false) : Reworded clock a b := by
  cases a with
  | float x =>
      cases b with
      | float y =>
          rcases Number.equals_and_not_beq.mp ⟨hequals, hsame⟩ with ⟨hx, hy⟩
          exact Reworded.real hx hy
      | _ => cases hequals
  | double x =>
      cases b with
      | double y =>
          rcases Number.equals_and_not_beq.mp ⟨hequals, hsame⟩ with ⟨hx, hy⟩
          exact Reworded.double hx hy
      | _ => cases hequals
  | time x =>
      cases b with
      | time y =>
          exact Reworded.time (beq_eq_false_iff_ne.mp (show (x == y) = false from hsame))
            (eq_of_beq (show (clock.time x == clock.time y) = true from hequals))
      | _ => cases hequals
  | timestamp x =>
      cases b with
      | timestamp y =>
          exact Reworded.timestamp (beq_eq_false_iff_ne.mp (show (x == y) = false from hsame))
            (eq_of_beq (show (clock.timestamp x == clock.timestamp y) = true from hequals))
      | _ => cases hequals
  | interval x =>
      cases b with
      | interval y =>
          exact Reworded.interval (beq_eq_false_iff_ne.mp (show (x == y) = false from hsame))
            (eq_of_beq (show (x.span == y.span) = true from hequals))
      | _ => cases hequals
  | json x =>
      cases b with
      | json y => exact Reworded.json (Json.reworded_of_not_same hequals hsame)
      | _ => cases hequals
  | array as =>
      cases b with
      | array bs =>
          rcases exists_reworded_item hequals hsame with ⟨i, a, b, ha, hb, h⟩
          exact Reworded.item ha hb h
      | _ => cases hequals
  | _ => cases b <;> cases hequals.symm.trans hsame

theorem exists_reworded_item {as bs : List Value} (hequals : equalItems clock as bs = true)
    (hsame : sameItems as bs = false) :
    exists (i : Nat) (a b : Value),
      as[i]? = some a ∧ bs[i]? = some b ∧ Reworded clock a b := by
  cases as with
  | nil =>
      cases bs with
      | nil => cases hequals.symm.trans hsame
      | cons b bs => cases hequals
  | cons a as =>
      cases bs with
      | nil => cases hequals
      | cons b bs =>
          rw [equalItems, Bool.and_eq_true] at hequals
          rw [sameItems, Bool.and_eq_false_iff] at hsame
          rcases hsame with hsame | hsame
          · exact ⟨0, a, b, rfl, rfl, reworded_of_not_same hequals.1 hsame⟩
          · rcases exists_reworded_item hequals.2 hsame with ⟨i, c, d, hc, hd, h⟩
            exact ⟨i + 1, c, d, hc, hd, h⟩

end

/-- Values that the server finds equal are the same value, unless a part of them is worded in
two ways. -/
theorem same_iff_of_equals {a b : Value} (h : a.equals clock b = true) :
    a.same b = true <-> ¬ Reworded clock a b := by
  constructor
  · intro hsame hreworded
    cases hsame.symm.trans (not_same_of_reworded hreworded)
  · intro hreworded
    cases hsame : a.same b with
    | true => rfl
    | false => exact absurd (reworded_of_not_same h hsame) hreworded

end Value
end TypedQuery
