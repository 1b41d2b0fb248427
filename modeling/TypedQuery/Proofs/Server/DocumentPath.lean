import TypedQuery.Proofs.Host.RoundTrip
import TypedQuery.Proofs.Server.Lexer

/-!
# Paths in documents

A path is a list of texts: each is a key where it meets an object, and an index where it meets an
array, counted from the end if it is negative.  Setting a path creates its last step and no other.
What is set is found again exactly when the steps before the last one lead to an object, or to an
array that has the last one as the index of an item or next to an item.
-/

namespace TypedQuery

open Server

/-- A step as an index: a whole number of 32 bits, perhaps with blanks and a sign before it. -/
def stepIndex? (step : String) : Option Int :=
  let signed (negative : Bool) (digits : List Char) : Option Int :=
    let n : Int := Nat.ofDigitChars 10 digits 0
    let i := if negative then -n else n
    let fits := -(Number.twoPow 31) ≤ i && i < Number.twoPow 31
    if !digits.isEmpty && digits.all Char.isDigit && fits then some i else none
  match step.toList.dropWhile isSpace with
  | '-' :: digits => signed true digits
  | '+' :: digits => signed false digits
  | digits => signed false digits

def itemPlace? (i : Int) (length : Nat) : Option Nat :=
  if 0 ≤ i then if i < length then some i.toNat else none
  else if 0 ≤ length + i then some (length + i).toNat
  else none

def itemAt? (i : Int) (items : List Json) : Option Json :=
  (itemPlace? i items.length).bind fun place => items[place]?

def putItem (i : Int) (value : Json) (items : List Json) : List Json :=
  match itemPlace? i items.length with
  | some place => items.set place value
  | none => if i < 0 then value :: items else items ++ [value]

namespace Json

def isScalar : Json -> Bool
  | object _ | array _ => false
  | _ => true

/-!
## Steps
-/

def child? (d : Json) (step : String) : Option Json :=
  match d with
  | array items => (stepIndex? step).bind fun i => itemAt? i items
  | d => d.member? step

/-- Replaces or creates what a step leads to; a scalar stays as it is, and of an array only indexes
can be set. -/
def put? (d : Json) (step : String) (value : Json) : Option Json :=
  match d with
  | object members => some (object (setMember step value members))
  | array items => (stepIndex? step).map fun i => array (putItem i value items)
  | d => some d

def Admits (d : Json) (step : String) : Prop :=
  match d with
  | object _ => True
  | array items =>
      exists i, stepIndex? step = some i ∧ -(items.length + 1) ≤ i ∧ i ≤ items.length
  | _ => False

end Json

/-!
## Items
-/

theorem itemPlace?_eq_some_iff {i : Int} {length place : Nat} :
    itemPlace? i length = some place <->
      place < length ∧ (i = place ∨ i = (place : Int) - length) := by
  unfold itemPlace?
  split
  · split
    · simp only [Option.some.injEq]
      omega
    · simp only [reduceCtorEq, false_iff]
      omega
  · split
    · simp only [Option.some.injEq]
      omega
    · simp only [reduceCtorEq, false_iff]
      omega

theorem itemPlace?_eq_none_iff {i : Int} {length : Nat} :
    itemPlace? i length = none <-> i < -length ∨ length ≤ i := by
  unfold itemPlace?
  split
  · split
    · simp only [reduceCtorEq, false_iff]
      omega
    · simp only [true_iff]
      omega
  · split
    · simp only [reduceCtorEq, false_iff]
      omega
    · simp only [true_iff]
      omega

theorem itemAt?_eq_some {i : Int} {items : List Json} (place : Nat) {item : Json}
    (hplace : place < items.length) (hi : i = place ∨ i = (place : Int) - items.length)
    (hitem : items[place]? = some item) : itemAt? i items = some item := by
  rw [itemAt?, itemPlace?_eq_some_iff.mpr ⟨hplace, hi⟩, Option.bind_some, hitem]

theorem itemAt?_eq_none {i : Int} {items : List Json}
    (h : i < -items.length ∨ items.length ≤ i) : itemAt? i items = none := by
  rw [itemAt?, itemPlace?_eq_none_iff.mpr h, Option.bind_none]

/-- An item is found at the index that it has been put to, if the index is that of an item or next
to one. -/
theorem itemAt?_putItem_iff (i : Int) (value : Json) (items : List Json) :
    itemAt? i (putItem i value items) = some value <->
      -(items.length + 1) ≤ i ∧ i ≤ items.length := by
  cases hplace : itemPlace? i items.length with
  | some place =>
      rcases itemPlace?_eq_some_iff.mp hplace with ⟨hlt, hi⟩
      have hput : putItem i value items = items.set place value := by rw [putItem, hplace]
      have hfound : itemAt? i (items.set place value) = some value :=
        itemAt?_eq_some place (by rwa [List.length_set]) (by rwa [List.length_set])
          (List.getElem?_set_self hlt)
      rw [hput]
      exact iff_of_true hfound (by omega)
  | none =>
      have hout := itemPlace?_eq_none_iff.mp hplace
      by_cases hnegative : i < 0
      · have hput : putItem i value items = value :: items := by
          rw [putItem, hplace]
          exact if_pos hnegative
        have hlength : (value :: items).length = items.length + 1 := List.length_cons
        rw [hput]
        by_cases hfirst : i = -(items.length + 1)
        · have hfound : itemAt? i (value :: items) = some value :=
            itemAt?_eq_some 0 (by omega) (by omega) rfl
          exact iff_of_true hfound (by omega)
        · have hnone : itemAt? i (value :: items) = none := itemAt?_eq_none (by omega)
          rw [hnone]
          exact iff_of_false nofun (by omega)
      · have hput : putItem i value items = items ++ [value] := by
          rw [putItem, hplace]
          exact if_neg hnegative
        have hlength : (items ++ [value]).length = items.length + 1 := by simp
        rw [hput]
        by_cases hlast : i = items.length
        · have hfound : itemAt? i (items ++ [value]) = some value :=
            itemAt?_eq_some items.length (by omega) (by omega) (by simp)
          exact iff_of_true hfound (by omega)
        · have hnone : itemAt? i (items ++ [value]) = none := itemAt?_eq_none (by omega)
          rw [hnone]
          exact iff_of_false nofun (by omega)

/-!
## Steps
-/

namespace Json

theorem put?_bind_child?_iff (d : Json) (step : String) (value : Json) :
    (d.put? step value).bind (·.child? step) = some value <-> d.Admits step := by
  cases d with
  | object members =>
      simp only [put?, Admits, Option.bind_some, iff_true]
      exact (member?_setMember step step value members).trans (if_pos rfl)
  | array items =>
      rw [put?, Admits]
      cases hstep : stepIndex? step with
      | none => simp
      | some i =>
          simpa only [Option.map_some, Option.bind_some, child?, Option.some.injEq,
            exists_eq_left', hstep] using itemAt?_putItem_iff i value items
  | _ => simp [put?, Admits, child?, member?]

theorem admits_of_child? {d child : Json} {step : String} (h : d.child? step = some child) :
    d.Admits step := by
  cases d with
  | object members => trivial
  | array items =>
      rcases Option.bind_eq_some_iff.mp h with ⟨i, hi, hitem⟩
      rcases Option.bind_eq_some_iff.mp hitem with ⟨place, hplace, -⟩
      rcases itemPlace?_eq_some_iff.mp hplace with ⟨hlt, hcases⟩
      exact ⟨i, hi, by omega⟩
  | _ => cases h

/-!
## Paths
-/

def at? (d : Json) : List String -> Option Json
  | [] => some d
  | step :: rest => (d.child? step).bind fun child => child.at? rest

/-- Sets what a path leads to and creates its last step; nothing is set where another step leads
nowhere, and none is the answer where an array meets a step that is no index. -/
def setAt? (value : Json) (d : Json) : List String -> Option Json
  | [] => some d
  | [step] => d.put? step value
  | step :: rest =>
      match d.child? step with
      | some child => (setAt? value child rest).bind fun changed => d.put? step changed
      | none => (d.put? step value).map fun _ => d

def set? (d : Json) (path : List String) (value : Json) : Option Json :=
  if d.isScalar then none else setAt? value d path

/-- The steps before the last one lead to a document that admits the last one. -/
def Settable (d : Json) (path : List String) : Prop :=
  exists front last parent,
    path = front ++ [last] ∧ d.at? front = some parent ∧ parent.Admits last

theorem settable_singleton_iff {d : Json} {step : String} :
    d.Settable [step] <-> d.Admits step := by
  constructor
  · rintro ⟨front, last, parent, hpath, hparent, hadmits⟩
    rcases List.append_eq_singleton_iff.mp hpath.symm with ⟨rfl, hlast⟩ | ⟨-, hlast⟩
    · cases hlast
      cases hparent
      exact hadmits
    · cases hlast
  · intro h
    exact ⟨[], step, d, rfl, rfl, h⟩

theorem settable_cons_iff {d : Json} {step : String} {rest : List String} (hrest : rest ≠ []) :
    d.Settable (step :: rest) <->
      exists child, d.child? step = some child ∧ child.Settable rest := by
  constructor
  · rintro ⟨front, last, parent, hpath, hparent, hadmits⟩
    cases front with
    | nil =>
        cases hpath
        exact absurd rfl hrest
    | cons first front =>
        injection hpath with hfirst hpath
        subst hfirst
        rcases Option.bind_eq_some_iff.mp hparent with ⟨child, hchild, hparent⟩
        exact ⟨child, hchild, front, last, parent, hpath, hparent, hadmits⟩
  · rintro ⟨child, hchild, front, last, parent, rfl, hparent, hadmits⟩
    refine ⟨step :: front, last, parent, rfl, ?_, hadmits⟩
    rw [at?, hchild, Option.bind_some, hparent]

theorem not_settable_nil (d : Json) : ¬ d.Settable [] := by
  rintro ⟨front, last, parent, hpath, -⟩
  exact absurd hpath.symm (List.append_ne_nil_of_right_ne_nil front (List.cons_ne_nil last []))

theorem at?_singleton (d : Json) (step : String) : d.at? [step] = d.child? step := by
  rw [at?]
  cases d.child? step <;> rfl

/-- What a path is set to is found at the path, if the path can be set. -/
theorem setAt?_bind_at?_iff (value d : Json) {path : List String} (hpath : path ≠ []) :
    (setAt? value d path).bind (·.at? path) = some value <-> d.Settable path := by
  induction path generalizing d with
  | nil => exact absurd rfl hpath
  | cons step rest ih =>
      cases rest with
      | nil =>
          rw [settable_singleton_iff, setAt?, <- put?_bind_child?_iff d step value]
          simp only [at?_singleton]
      | cons next more =>
          rw [settable_cons_iff (List.cons_ne_nil next more), setAt?.eq_def]
          dsimp only
          cases hchild : d.child? step with
          | none =>
              have hnone : d.at? (step :: next :: more) = none := by
                rw [at?, hchild, Option.bind_none]
              cases d.put? step value with
              | none => simp
              | some _ => simp [hnone]
          | some child =>
              -- A step that leads somewhere can be set again to whatever comes of its child.
              have hput : forall changed, (d.put? step changed).bind
                  (fun d' => d'.at? (step :: next :: more)) = changed.at? (next :: more) := by
                intro changed
                have hfound := (put?_bind_child?_iff d step changed).mpr (admits_of_child? hchild)
                rcases Option.bind_eq_some_iff.mp hfound with ⟨d', hd', hchanged⟩
                rw [hd', Option.bind_some, at?, hchanged, Option.bind_some]
              simp only [Option.bind_assoc, hput, Option.some.injEq, exists_eq_left']
              exact ih child (List.cons_ne_nil next more)

theorem not_settable_of_isScalar {d : Json} (h : d.isScalar = true) (path : List String) :
    ¬ d.Settable path := by
  have hchild : forall step, d.child? step = none := by
    intro step
    cases d with
    | object members => cases h
    | array items => cases h
    | _ => rfl
  have hadmits : forall step, ¬ d.Admits step := by
    intro step
    cases d with
    | object members => cases h
    | array items => cases h
    | _ => exact id
  rintro ⟨front, last, parent, rfl, hparent, hlast⟩
  cases front with
  | nil =>
      cases hparent
      exact hadmits last hlast
  | cons first front =>
      rw [at?, hchild first] at hparent
      cases hparent

theorem set?_bind_at?_iff (value d : Json) {path : List String} (hpath : path ≠ []) :
    (d.set? path value).bind (·.at? path) = some value <-> d.Settable path := by
  rw [set?]
  cases hscalar : d.isScalar with
  | true => simp [not_settable_of_isScalar hscalar]
  | false => simpa using setAt?_bind_at?_iff value d hpath

/-!
## Concatenation
-/

/-- A document that is no array is taken for an array of it alone. -/
def asItems : Json -> List Json
  | array items => items
  | d => [d]

def concat (d d' : Json) : Json :=
  match d, d' with
  | object members, object more => object (more.foldl (fun all m => setMember m.1 m.2 all) members)
  | d, d' => array (d.asItems ++ d'.asItems)

theorem concat_array (d : Json) (items : List Json) :
    d.concat (array items) = array (d.asItems ++ items) := by
  cases d <;> rfl

end Json
end TypedQuery
