import Mathlib.Data.List.Induction
import Mathlib.Data.List.Nodup
import Mathlib.Data.List.Perm.Basic
import Mathlib.Data.Option.Basic
import TypedQuery.Proofs.Statement.Stored

/-!
# Assignments of one update

An update holds one pending expression for every column that a call has given a value, in the
order in which the columns were first named.  What a call makes of its column depends on the
pending expression of this column alone, so the calls compose column by column.
-/

namespace TypedQuery

/-- The place of the column that a name leads to, be it a field or a physical name. -/
def Table.index? (t : Table) (name : String) : Option Nat := (t.findColumn? name).map (·.1)

theorem Table.index?_of_requireColumn {t : Table} {name : String} {found : Nat × Column}
    (h : t.requireColumn name = .ok found) : t.index? name = some found.1 := by
  rw [index?, requireColumn_eq_ok_iff.mp h, Option.map_some]

namespace Update

/-!
## Pending expressions

The assignments are a list of pairs in which no column stands twice.
-/

def Distinct (assignments : List (Nat × TypedFragment)) : Prop :=
  (assignments.map (·.1)).Nodup

theorem map_fst_assigned (index : Nat) (value : TypedFragment)
    (assignments : List (Nat × TypedFragment)) :
    (assigned index value assignments).map (·.1) =
      if index ∈ assignments.map (·.1) then assignments.map (·.1)
      else assignments.map (·.1) ++ [index] := by
  induction assignments with
  | nil => simp [assigned]
  | cons entry rest ih =>
      rcases entry with ⟨i, v⟩
      by_cases hi : i = index
      · simp [assigned, hi]
      · have hne : index ≠ i := Ne.symm hi
        by_cases hmem : index ∈ rest.map (·.1)
        · rw [if_pos hmem] at ih
          simp [assigned, hi, ih, hmem]
        · rw [if_neg hmem] at ih
          simp [assigned, hi, ih, hmem, hne]

theorem assigned_perm {index : Nat} {assignments : List (Nat × TypedFragment)}
    (hdistinct : Distinct assignments) (value : TypedFragment) :
    (assigned index value assignments).Perm
      ((index, value) :: assignments.filter (·.1 != index)) := by
  induction assignments with
  | nil => exact List.Perm.refl _
  | cons entry rest ih =>
      rcases entry with ⟨i, v⟩
      rcases List.nodup_cons.mp hdistinct with ⟨hhead, hrest⟩
      by_cases hi : i = index
      · subst hi
        have hkept : rest.filter (·.1 != i) = rest := by
          rw [List.filter_eq_self]
          intro entry hentry
          have hne : entry.1 ≠ i := by
            rintro rfl
            exact hhead (List.mem_map_of_mem (f := (·.1)) hentry)
          simpa using hne
        rw [assigned, if_pos rfl, List.filter_cons_of_neg (by simp), hkept]
      · rw [assigned, if_neg hi, List.filter_cons_of_pos (by simpa using hi)]
        exact ((ih hrest).cons (i, v)).trans (List.Perm.swap _ _ _)

theorem distinct_assigned {assignments : List (Nat × TypedFragment)}
    (hdistinct : Distinct assignments) (index : Nat) (value : TypedFragment) :
    Distinct (assigned index value assignments) := by
  unfold Distinct
  rw [map_fst_assigned]
  split
  · exact hdistinct
  · rename_i hnew
    rw [<- List.concat_eq_append]
    exact hdistinct.concat hnew

theorem pending?_eq_some_iff {u : Update} (hdistinct : Distinct u.assignments) {index : Nat}
    {value : TypedFragment} :
    u.pending? index = some value <-> (index, value) ∈ u.assignments := by
  unfold pending?
  generalize u.assignments = assignments at hdistinct
  induction assignments with
  | nil => simp
  | cons entry rest ih =>
      rcases entry with ⟨i, v⟩
      rcases List.nodup_cons.mp hdistinct with ⟨hhead, hrest⟩
      by_cases hi : i = index
      · subst hi
        have hnot : (i, value) ∉ rest := fun hmem =>
          hhead (List.mem_map_of_mem (f := (·.1)) hmem)
        simp [hnot, eq_comm]
      · have hne : index ≠ i := Ne.symm hi
        simpa [hi, hne] using ih hrest

theorem pending?_of_perm {u v : Update} (hdistinct : Distinct u.assignments)
    (hperm : v.assignments.Perm u.assignments) (index : Nat) :
    v.pending? index = u.pending? index := by
  have hother : Distinct v.assignments := (hperm.map _).nodup_iff.mpr hdistinct
  refine Option.ext fun value => ?_
  rw [pending?_eq_some_iff hother, pending?_eq_some_iff hdistinct, hperm.mem_iff]

/-!
## Steps

A call either leaves an error behind, or it replaces the pending expression of its column.
-/

/-- The column that a call names and the expression that it makes for this column. -/
def change (u : Update) (name : String) (a : Assignment) : Result (Nat × TypedFragment) := do
  let t <- u.table
  let (index, column) <- t.requireColumn name
  return (index, <- a.make (u.compiler t) column (u.current index column))

theorem apply_of_error {u : Update} {e : Error} (herror : u.error = some e) (name : String)
    (a : Assignment) : a.apply u name = u := by
  rw [a.apply_eq_modify]
  unfold modify
  rw [herror]

theorem apply_eq_change {u : Update} (herror : u.error = none) (name : String) (a : Assignment) :
    a.apply u name =
      match u.change name a with
      | .ok (index, value) => u.withPending index value
      | .error e => u.fail e := by
  rcases u with ⟨table, assignments, filters, calls, error⟩
  change error = none at herror
  subst herror
  rw [a.apply_eq_modify]
  rfl

theorem apply_eq_of_change {u : Update} (herror : u.error = none) {name : String}
    {a : Assignment} {index : Nat} {value : TypedFragment}
    (hchange : u.change name a = .ok (index, value)) :
    a.apply u name = u.withPending index value := by
  rw [apply_eq_change herror, hchange]

/-- A call that leaves no error behind found none, and made an expression for its column. -/
theorem exists_change {u : Update} {name : String} {a : Assignment}
    (h : (a.apply u name).error = none) :
    u.error = none ∧ exists index value, u.change name a = .ok (index, value) := by
  cases herror : u.error with
  | some e =>
      rw [apply_of_error herror, herror] at h
      cases h
  | none =>
      refine ⟨rfl, ?_⟩
      rw [apply_eq_change herror] at h
      cases hchange : u.change name a with
      | ok changed => exact ⟨changed.1, changed.2, rfl⟩
      | error e =>
          rw [hchange] at h
          have hfail := isSome_error_fail u e
          rw [h] at hfail
          cases hfail

theorem index?_of_change {u : Update} {t : Table} (ht : u.table = .ok t) {name : String}
    {a : Assignment} {index : Nat} {value : TypedFragment}
    (hchange : u.change name a = .ok (index, value)) : t.index? name = some index := by
  unfold change at hchange
  rw [ht, Result.ok_bind] at hchange
  rcases Result.bind_eq_ok.mp hchange with ⟨found, hfound, hmade⟩
  rcases Result.bind_eq_ok.mp hmade with ⟨made, -, heq⟩
  cases heq
  exact Table.index?_of_requireColumn hfound

/-- Of the pending expressions, a call reads that of its own column alone. -/
theorem change_congr {u v : Update} (htable : v.table = u.table) (hcalls : v.calls = u.calls)
    {name : String}
    (hpending : forall t index, u.table = .ok t -> t.index? name = some index ->
      v.pending? index = u.pending? index) (a : Assignment) :
    v.change name a = u.change name a := by
  unfold change
  rw [htable]
  cases ht : u.table with
  | error e => rfl
  | ok t =>
      have hcompiler : v.compiler t = u.compiler t := by rw [compiler, compiler, hcalls]
      rw [Result.ok_bind, Result.ok_bind, hcompiler]
      cases hcolumn : t.requireColumn name with
      | error e => rfl
      | ok found =>
          have hindex := Table.index?_of_requireColumn hcolumn
          simp only [Result.ok_bind, current, hpending t found.1 ht hindex]

theorem withPending_pending?_self (u : Update) (index : Nat) (value : TypedFragment) :
    (u.withPending index value).pending? index = some value :=
  pending?_assigned_self u index value

theorem withPending_pending?_of_ne (u : Update) {index other : Nat} (value : TypedFragment)
    (hne : other ≠ index) : (u.withPending index value).pending? other = u.pending? other :=
  pending?_assigned_of_ne u value hne

theorem change_withPending {u : Update} {t : Table} (ht : u.table = .ok t) {name : String}
    {other : Nat} (hother : t.index? name ≠ some other) (value : TypedFragment)
    (a : Assignment) : (u.withPending other value).change name a = u.change name a := by
  refine change_congr (u := u) (v := u.withPending other value) rfl rfl ?_ a
  intro t' index ht' hindex
  rw [ht] at ht'
  cases ht'
  refine withPending_pending?_of_ne u value ?_
  rintro rfl
  exact hother hindex

/-!
## Runs
-/

def applyAll (u : Update) (calls : List (String × Assignment)) : Update :=
  calls.foldl (fun u call => call.2.apply u call.1) u

theorem applyAll_append (u : Update) (calls more : List (String × Assignment)) :
    u.applyAll (calls ++ more) = (u.applyAll calls).applyAll more :=
  List.foldl_append

theorem applyAll_concat (u : Update) (calls : List (String × Assignment)) (name : String)
    (a : Assignment) :
    u.applyAll (calls ++ [(name, a)]) = a.apply (u.applyAll calls) name :=
  applyAll_append u calls [(name, a)]

theorem exists_last_change {u : Update} {calls : List (String × Assignment)} {name : String}
    {a : Assignment} (h : (u.applyAll (calls ++ [(name, a)])).error = none) :
    (u.applyAll calls).error = none ∧ exists index value,
      (u.applyAll calls).change name a = .ok (index, value) ∧
        u.applyAll (calls ++ [(name, a)]) = (u.applyAll calls).withPending index value := by
  rw [applyAll_concat] at h ⊢
  rcases exists_change h with ⟨hbefore, index, value, hchange⟩
  exact ⟨hbefore, index, value, hchange, apply_eq_of_change hbefore hchange⟩

theorem error_of_applyAll {u : Update} {calls : List (String × Assignment)}
    (h : (u.applyAll calls).error = none) : u.error = none := by
  induction calls using List.reverseRecOn with
  | nil => exact h
  | append_singleton calls call ih => exact ih (exists_last_change h).1

/-- What a run that leaves no error behind keeps of the update that it starts from. -/
theorem exists_applyAll {u : Update} {calls : List (String × Assignment)}
    (h : (u.applyAll calls).error = none) :
    exists assignments, u.applyAll calls = { u with assignments } := by
  induction calls using List.reverseRecOn with
  | nil => exact ⟨u.assignments, rfl⟩
  | append_singleton calls call ih =>
      rcases exists_last_change h with ⟨hbefore, index, value, -, heq⟩
      rcases ih hbefore with ⟨assignments, hrun⟩
      rw [heq, hrun]
      exact ⟨assigned index value assignments, rfl⟩

theorem applyAll_table {u : Update} {calls : List (String × Assignment)}
    (h : (u.applyAll calls).error = none) : (u.applyAll calls).table = u.table := by
  rcases exists_applyAll h with ⟨assignments, hrun⟩
  rw [hrun]

theorem applyAll_calls {u : Update} {calls : List (String × Assignment)}
    (h : (u.applyAll calls).error = none) : (u.applyAll calls).calls = u.calls := by
  rcases exists_applyAll h with ⟨assignments, hrun⟩
  rw [hrun]

theorem distinct_applyAll {u : Update} (hdistinct : Distinct u.assignments)
    {calls : List (String × Assignment)} (h : (u.applyAll calls).error = none) :
    Distinct (u.applyAll calls).assignments := by
  induction calls using List.reverseRecOn with
  | nil => exact hdistinct
  | append_singleton calls call ih =>
      rcases exists_last_change h with ⟨hbefore, index, value, -, heq⟩
      rw [heq]
      exact distinct_assigned (ih hbefore) index value

/-- The columns of a run stand in the order in which they were first named. -/
theorem exists_touched {u : Update} {t : Table} (ht : u.table = .ok t)
    (hfresh : u.assignments = []) {calls : List (String × Assignment)}
    (h : (u.applyAll calls).error = none) :
    exists touched : List Nat, calls.map (fun call => t.index? call.1) = touched.map some ∧
      (u.applyAll calls).assignments.map (·.1) = touched.eraseDups := by
  induction calls using List.reverseRecOn with
  | nil => exact ⟨[], rfl, by rw [applyAll, List.foldl_nil, hfresh]; rfl⟩
  | append_singleton calls call ih =>
      rcases exists_last_change h with ⟨hbefore, index, value, hchange, heq⟩
      rcases ih hbefore with ⟨touched, htouched, hcolumns⟩
      have hindex := index?_of_change ((applyAll_table hbefore).trans ht) hchange
      refine ⟨touched ++ [index], by simp [htouched, hindex], ?_⟩
      rw [heq, withPending, map_fst_assigned, hcolumns, List.eraseDups_append]
      by_cases hmem : index ∈ touched
      · simp [hmem, List.removeAll]
      · simp [hmem, List.removeAll, List.eraseDups_cons]

/-!
## Columns apart
-/

def addressed (t : Table) (index : Nat) (calls : List (String × Assignment)) :
    List (String × Assignment) :=
  calls.filter fun call => t.index? call.1 == some index

/-- What a column is to be set to is decided by the calls on this column. -/
theorem pending?_applyAll {u : Update} {t : Table} (ht : u.table = .ok t) (index : Nat)
    {calls : List (String × Assignment)} (h : (u.applyAll calls).error = none) :
    (u.applyAll (addressed t index calls)).error = none ∧
      (u.applyAll calls).pending? index =
        (u.applyAll (addressed t index calls)).pending? index := by
  induction calls using List.reverseRecOn with
  | nil => exact ⟨h, rfl⟩
  | append_singleton calls call ih =>
      rcases call with ⟨name, a⟩
      rcases exists_last_change h with ⟨hbefore, i, value, hchange, heq⟩
      rcases ih hbefore with ⟨hsome, hpending⟩
      have hname := index?_of_change ((applyAll_table hbefore).trans ht) hchange
      by_cases hi : i = index
      · subst hi
        have hkept : addressed t i (calls ++ [(name, a)]) =
            addressed t i calls ++ [(name, a)] := by
          simp [addressed, hname]
        have hsame : (u.applyAll (addressed t i calls)).change name a = .ok (i, value) := by
          rw [<- hchange]
          refine change_congr ?_ ?_ ?_ a
          · rw [applyAll_table hsome, applyAll_table hbefore]
          · rw [applyAll_calls hsome, applyAll_calls hbefore]
          · intro t' j ht' hj
            rw [applyAll_table hbefore, ht] at ht'
            cases ht'
            rw [hname] at hj
            cases hj
            exact hpending.symm
        rw [hkept, applyAll_concat u (addressed t i calls), apply_eq_of_change hsome hsame, heq,
          withPending_pending?_self, withPending_pending?_self]
        exact ⟨hsome, rfl⟩
      · have hkept : addressed t index (calls ++ [(name, a)]) = addressed t index calls := by
          simp [addressed, hname, hi]
        rw [hkept, heq, withPending_pending?_of_ne _ _ (Ne.symm hi)]
        exact ⟨hsome, hpending⟩

/-!
## Calls exchanged
-/

/-- Two updates that differ in the order of their assignments alone. -/
structure Rearranged (u v : Update) : Prop where
  assignments : v.assignments.Perm u.assignments
  table : v.table = u.table
  filters : v.filters = u.filters
  calls : v.calls = u.calls
  error : v.error = u.error

theorem Rearranged.apply {u v : Update} (hrearranged : Rearranged u v)
    (hdistinct : Distinct u.assignments) (name : String) (a : Assignment) :
    Rearranged (a.apply u name) (a.apply v name) := by
  rcases hrearranged with ⟨hperm, htable, hfilters, hcalls, herrors⟩
  cases herror : u.error with
  | some e =>
      rw [apply_of_error herror, apply_of_error (herrors.trans herror)]
      exact ⟨hperm, htable, hfilters, hcalls, herrors⟩
  | none =>
      have hsame : v.change name a = u.change name a :=
        change_congr htable hcalls (fun t index _ _ => pending?_of_perm hdistinct hperm index) a
      rw [apply_eq_change herror, apply_eq_change (herrors.trans herror), hsame]
      cases hchange : u.change name a with
      | error e =>
          exact ⟨hperm, htable, hfilters, hcalls, congrArg (Option.or · (some e)) herrors⟩
      | ok changed =>
          rcases changed with ⟨index, value⟩
          have hother : Distinct v.assignments := (hperm.map _).nodup_iff.mpr hdistinct
          refine ⟨?_, htable, hfilters, hcalls, herrors⟩
          exact (assigned_perm hother value).trans
            (((hperm.filter _).cons _).trans (assigned_perm hdistinct value).symm)

theorem Rearranged.applyAll {u v : Update} (hrearranged : Rearranged u v)
    (hdistinct : Distinct u.assignments) {calls : List (String × Assignment)}
    (h : (u.applyAll calls).error = none) :
    Rearranged (u.applyAll calls) (v.applyAll calls) := by
  induction calls using List.reverseRecOn with
  | nil => exact hrearranged
  | append_singleton calls call ih =>
      rcases call with ⟨name, a⟩
      have hbefore := (exists_last_change h).1
      rw [applyAll_concat, applyAll_concat]
      exact (ih hbefore).apply (distinct_applyAll hdistinct hbefore) name a

theorem assigned_comm {i j : Nat} (hne : i ≠ j) {assignments : List (Nat × TypedFragment)}
    (hdistinct : Distinct assignments) (x y : TypedFragment) :
    (assigned i x (assigned j y assignments)).Perm (assigned j y (assigned i x assignments)) := by
  have houtermost : forall {i j : Nat} (x y : TypedFragment), i ≠ j ->
      (assigned i x (assigned j y assignments)).Perm ((i, x) :: (j, y) ::
        assignments.filter (fun entry => entry.1 != i && entry.1 != j)) := by
    intro i j x y hne
    have hinner : ((assigned j y assignments).filter (·.1 != i)).Perm _ :=
      (assigned_perm hdistinct y).filter _
    rw [List.filter_cons_of_pos (by simpa using hne.symm), List.filter_filter] at hinner
    exact (assigned_perm (distinct_assigned hdistinct j y) x).trans (hinner.cons _)
  have hright := houtermost y x hne.symm
  rw [funext fun entry : Nat × TypedFragment => Bool.and_comm (entry.1 != j) _] at hright
  exact (houtermost x y hne).trans ((List.Perm.swap _ _ _).trans hright.symm)

theorem rearranged_swap {u : Update} {t : Table} (ht : u.table = .ok t)
    (hdistinct : Distinct u.assignments) {first second : String × Assignment}
    (hapart : t.index? first.1 ≠ t.index? second.1)
    (h : (u.applyAll [first, second]).error = none) :
    Rearranged (u.applyAll [first, second]) (u.applyAll [second, first]) := by
  rcases first with ⟨name, a⟩
  rcases second with ⟨name', b⟩
  rcases @exists_last_change u [(name, a)] name' b h with ⟨hone, j, y, hsecond, hboth⟩
  rcases @exists_last_change u [] name a hone with ⟨hnone, i, x, hfirst, hrun⟩
  change u.error = none at hnone
  change u.change name a = .ok (i, x) at hfirst
  change u.applyAll [(name, a)] = u.withPending i x at hrun
  rw [List.singleton_append, hrun] at hboth
  rw [hrun] at hsecond
  have hi : t.index? name = some i := index?_of_change ht hfirst
  have hj : t.index? name' = some j := index?_of_change (u := u.withPending i x) ht hsecond
  have hne : i ≠ j := by
    rintro rfl
    exact hapart (hi.trans hj.symm)
  have hearlier : u.change name' b = .ok (j, y) := by
    rw [<- hsecond]
    exact (change_withPending ht (fun h => hne (Option.some.inj (h.symm.trans hj))) x b).symm
  have hlater : (u.withPending j y).change name a = .ok (i, x) := by
    rw [<- hfirst]
    exact change_withPending ht (fun h => hne (Option.some.inj (hi.symm.trans h))) y a
  have hswapped : u.applyAll [(name', b), (name, a)] = (u.withPending j y).withPending i x := by
    change a.apply (b.apply u name') name = _
    rw [apply_eq_of_change hnone hearlier, apply_eq_of_change (u := u.withPending j y) hnone hlater]
  rw [hboth, hswapped]
  exact ⟨assigned_comm hne hdistinct x y, rfl, rfl, rfl, rfl⟩

/-- Assignments compose column by column: they stand in the order in which the columns were first
named, every one is what the calls on its own column make, and two neighbouring calls on
different columns can be exchanged up to that order. -/
theorem applyAll_composes {u : Update} {t : Table} (ht : u.table = .ok t)
    (hfresh : u.assignments = []) {calls : List (String × Assignment)}
    (hsuccess : (u.applyAll calls).error = none) :
    (exists touched : List Nat, calls.map (fun call => t.index? call.1) = touched.map some ∧
        (u.applyAll calls).assignments.map (·.1) = touched.eraseDups) ∧
      ((u.applyAll calls).assignments.map (·.1)).Nodup ∧
      (forall index,
        (u.applyAll (addressed t index calls)).error = none ∧
          (u.applyAll calls).pending? index =
            (u.applyAll (addressed t index calls)).pending? index) ∧
      forall before first second after, calls = before ++ first :: second :: after ->
        t.index? first.1 ≠ t.index? second.1 ->
        Rearranged (u.applyAll calls) (u.applyAll (before ++ second :: first :: after)) := by
  have hdistinct : Distinct u.assignments := by
    rw [hfresh]
    exact List.nodup_nil
  refine ⟨exists_touched ht hfresh hsuccess, distinct_applyAll hdistinct hsuccess,
    fun index => pending?_applyAll ht index hsuccess, ?_⟩
  rintro before first second after rfl hapart
  have hsplit : forall first second : String × Assignment,
      u.applyAll (before ++ first :: second :: after) =
        ((u.applyAll before).applyAll [first, second]).applyAll after := by
    intro first second
    rw [<- applyAll_append, <- applyAll_append]
    rfl
  rw [hsplit] at hsuccess ⊢
  rw [hsplit]
  have hboth : ((u.applyAll before).applyAll [first, second]).error = none :=
    error_of_applyAll hsuccess
  have hbefore : (u.applyAll before).error = none := error_of_applyAll hboth
  have hstart := distinct_applyAll hdistinct hbefore
  exact (rearranged_swap ((applyAll_table hbefore).trans ht) hstart hapart hboth).applyAll
    (distinct_applyAll hstart hboth) hsuccess

/-!
A basket whose list of tags has another physical name; its calls alternate between two columns.
-/

def basketTable : Table where
  model := "Basket"
  name := "basket"
  schema := none
  columns := [{ field := "title", name := "title", type := .text },
    { field := "tags", name := "item_tags", type := .array .text }]

def basketTags (tags : List String) : Expr := .constant ⟨.array (tags.map .text), .array .text⟩

def basketCalls : List (String × Assignment) :=
  [("tags", .addToListDistinct (basketTags ["new"])),
    ("title", .setWith fun title => .binary .add title (.constant ⟨.text "!", .text⟩)),
    ("item_tags", .removeAllFromList (basketTags ["old", "worn"]))]

def basket : Update := { table := .ok basketTable }

theorem basket_composes :
    (basket.applyAll basketCalls).error = none ∧
      (basket.applyAll basketCalls).assignments.map (·.1) = [1, 0] ∧
      (basket.applyAll basketCalls).pending? 1 =
        (basket.applyAll [basketCalls[0], basketCalls[2]]).pending? 1 ∧
      Rearranged (basket.applyAll basketCalls)
        (basket.applyAll [basketCalls[0], basketCalls[2], basketCalls[1]]) := by
  have hsuccess : (basket.applyAll basketCalls).error = none := rfl
  rcases applyAll_composes (u := basket) (t := basketTable) rfl rfl hsuccess with
    ⟨⟨touched, htouched, hcolumns⟩, -, hpending, hswap⟩
  have hnamed : touched = [1, 0, 1] := by
    have h : [1, 0, 1].map some = touched.map some := htouched
    exact (List.map_injective_iff.mpr (Option.some_injective Nat) h).symm
  refine ⟨hsuccess, ?_, (hpending 1).2, ?_⟩
  · rw [hcolumns, hnamed]
    decide
  · exact hswap [basketCalls[0]] basketCalls[1] basketCalls[2] [] rfl (by decide)

end Update
end TypedQuery
